import VendorTree.Proofs.ProjectRuns
import VendorTree.Proofs.QuotedTexts
import VendorTree.Proofs.RunEnds
import VendorTree.Proofs.ShownTexts
import VendorTree.Proofs.Survivors

/-!
# Exit codes

By its exit code the command that prunes a project tells whether the run came to a result, and where
it did not the command names the stage of the failure. All that it prints is read as markup, though,
and the name of the project and the paths stand in it as they are. Where this makes a text wrong,
the command ends by it, whatever the run has done by then.
-/

namespace VendorTree

open CommandLine (Settings readRequest)
open Console (Stream Table)

/-! ### What is printed of a run -/

section Texts

variable {title : String} {result : RunResult} {stage : Stage} {cause : CallFailure}

/-- The text that is printed of a result at the end. -/
def summaryMarkup (result : RunResult) : String :=
  "[success]" ++ ("Removed " ++ toString result.removed.length ++ " path(s) from " ++
    result.root.text) ++ "[/]"

/-- What is said of a stage that failed before the failure itself. -/
def stageText (title : String) (stage : Stage) : String :=
  title ++ ": stage '" ++ stage.label ++ "' failed: "

/-- The text that names the stage of a failure. -/
def failureMarkup (title : String) (stage : Stage) (cause : CallFailure) : String :=
  "[error]Error:[/] " ++ (stageText title stage ++ cause.message)

theorem resultTable_lines_ok_iff :
    (∃ lines, (resultTable [(title, result)]).lines = .ok lines) ↔ Console.Shown title := by
  rw [Console.Table.lines_ok_iff]
  constructor
  · intro hcells
    exact hcells _ (List.mem_singleton_self _) title List.mem_cons_self
  · intro htitle
    exact Command.resultTable_shown fun x hx => by rwa [List.mem_singleton.1 hx]

theorem notMem_quoted {p : String} (h : '[' ∉ p.toList) : '[' ∉ (Text.quoted p).toList := by
  have hdigits : ∀ width n, '[' ∉ Text.hexDigits width n := by
    intro width n hmem
    obtain ⟨d, hd, hdigit⟩ := Text.mem_hexDigits hmem
    have hnone : ∀ d < 16, '[' ≠ Nat.digitChar d := by decide
    exact hnone d hd hdigit
  have hquote : ∀ cs : List Char, Text.quoteFor cs ≠ '[' := by
    intro cs
    unfold Text.quoteFor
    split <;> decide
  have hchar : ∀ quote c, c ≠ '[' → '[' ∉ Text.quotedChar quote c := by
    intro quote c hc
    unfold Text.quotedChar Text.numberedEscape
    split_ifs <;> simp [hc.symm, hdigits]
  rw [Text.quoted, String.toList_ofList]
  simp only [List.cons_append, List.mem_cons, List.mem_append, List.mem_flatMap, List.not_mem_nil,
    or_false, not_or, not_exists, not_and]
  refine ⟨(hquote _).symm, fun c hc => hchar _ c ?_, (hquote _).symm⟩
  rintro rfl
  exact h hc

/-- What the system says of a failed call starts with a bracket that is no tag. -/
theorem toList_message (cause : CallFailure) :
    ∃ tail, cause.message.toList = '[' :: 'E' :: tail ∧
      ((∀ p ∈ cause.paths, '[' ∉ p.toList) → '[' ∉ tail) := by
  have hcode : '[' ∉ cause.code.text.toList := by cases cause.code <;> decide
  have hnumber := Console.notMem_toString (c := '[') (by decide) cause.code.number
  have hquoted : (∀ p ∈ cause.paths, '[' ∉ p.toList) →
      '[' ∉ (" -> ".intercalate (cause.paths.map Text.quoted)).toList := by
    intro hpaths
    rw [String.toList_intercalate, mem_intercalate_iff (by decide)]
    rintro ⟨part, hpart, hmem⟩
    obtain ⟨text, htext, rfl⟩ := List.mem_map.1 hpart
    obtain ⟨p, hp, rfl⟩ := List.mem_map.1 htext
    exact notMem_quoted (hpaths p hp) hmem
  obtain ⟨more, hmessage, hmore⟩ : ∃ more, cause.message =
      "[Errno " ++ toString cause.code.number ++ "] " ++ cause.code.text ++ more ∧
        ((∀ p ∈ cause.paths, '[' ∉ p.toList) → '[' ∉ more.toList) := by
    unfold CallFailure.message
    simp only
    split
    · exact ⟨"", String.append_empty.symm, by simp⟩
    · refine ⟨": " ++ " -> ".intercalate (cause.paths.map Text.quoted), ?_, fun hpaths => ?_⟩
      · rw [← String.append_assoc]
      · rw [String.toList_append, List.mem_append, not_or]
        exact ⟨by decide, hquoted hpaths⟩
  have hstart : "[Errno ".toList = '[' :: 'E' :: "rrno ".toList := by decide
  refine ⟨"rrno ".toList ++ (toString cause.code.number).toList ++ "] ".toList ++
    cause.code.text.toList ++ more.toList, ?_, fun hpaths => ?_⟩
  · simp only [hmessage, String.toList_append, hstart, List.cons_append]
  · simp only [List.mem_append, not_or]
    exact ⟨⟨⟨⟨by decide, hnumber⟩, by decide⟩, hcode⟩, hmore hpaths⟩

/-- Whatever markup the name of the project has, what is shown of a failure shows its stage. -/
theorem stage_isInfix {text : String}
    (h : Console.render (failureMarkup title stage cause) = .ok text) :
    (": stage '" ++ stage.label ++ "' failed: ").toList <:+: text.toList := by
  obtain ⟨tail, hmessage, -⟩ := toList_message cause
  have hsplit : ∀ start before label after message : String,
      (start ++ (title ++ before ++ label ++ after ++ message)).toList =
        (start ++ title).toList ++ ((before ++ label ++ after).toList ++ message.toList) := by
    intro start before label after message
    simp only [String.toList_append, List.append_assoc]
  have hmarkup : (failureMarkup title stage cause).toList = ("[error]Error:[/] " ++ title).toList ++
      ((": stage '" ++ stage.label ++ "' failed: ").toList ++ '[' :: 'E' :: tail) := by
    have hparts := hsplit "[error]Error:[/] " ": stage '" stage.label "' failed: " cause.message
    rw [hmessage] at hparts
    exact hparts
  have hlabel : stage.label.toList.all Console.isShownAsIs = true := by cases stage <;> decide
  have hwords : (": stage '" ++ stage.label ++ "' failed: ").toList.all Console.isShownAsIs =
      true := by
    simp only [String.toList_append, List.all_append, Bool.and_eq_true]
    exact ⟨⟨by decide, hlabel⟩, by decide⟩
  have hcolon : ':' ∈ (": stage '" ++ stage.label ++ "' failed: ").toList := by
    rw [String.toList_append, String.toList_append, List.append_assoc]
    exact List.mem_append_left _ (by decide)
  exact Console.isInfix_of_render h hmarkup (List.ne_nil_of_mem hcolon) hwords

theorem summary_shown (hopen : '[' ∉ result.root.text.toList)
    (hescape : '\\' ∉ result.root.text.toList) : Console.Shown (summaryMarkup result) := by
  have hdigits := fun c hc => Console.notMem_toString (c := c) hc result.removed.length
  have hwords : ∀ c, c.isDigit = false → c ∉ "Removed ".toList → c ∉ " path(s) from ".toList →
      c ∉ result.root.text.toList → c ∉ ("Removed " ++ toString result.removed.length ++
        " path(s) from " ++ result.root.text).toList := by
    intro c hc hbefore hafter hroot
    simp only [String.toList_append, List.mem_append, not_or]
    exact ⟨⟨⟨hbefore, hdigits c hc⟩, hafter⟩, hroot⟩
  exact Console.render_between "success" (by decide +kernel)
    (hwords '[' (by decide) (by decide) (by decide) hopen)
    (hwords '\\' (by decide) (by decide) (by decide) hescape)

theorem failure_shown (htitle : '[' ∉ title.toList)
    (hpaths : ∀ p ∈ cause.paths, '[' ∉ p.toList) :
    Console.Shown (failureMarkup title stage cause) := by
  obtain ⟨tail, hmessage, htail⟩ := toList_message cause
  have hfront : '[' ∉ (" " ++ stageText title stage).toList := by
    have hlabel : '[' ∉ stage.label.toList := by cases stage <;> decide
    simp only [stageText, String.toList_append, List.mem_append, not_or]
    exact ⟨by decide, ⟨⟨htitle, by decide⟩, hlabel⟩, by decide⟩
  have hlast : (" " ++ stageText title stage).toList.getLast? ≠ some '\\' := by
    have hend : "' failed: ".toList.getLast? = some ' ' := by decide
    simp only [stageText, String.toList_append, List.getLast?_append, hend, Option.some_or]
    decide
  have hbracket : Console.piecesAfter 0 ('[' :: 'E' :: tail) =
      .text ['['] :: Console.piecesAfter 0 ('E' :: tail) := by
    rw [Console.piecesAfter]
    simp [Console.backslashes, Console.tagAt?, Console.startsTag]
  have hplain : Console.piecesAfter 0 (" " ++ (stageText title stage ++ cause.message)).toList =
      (" " ++ (stageText title stage ++ cause.message)).toList.map fun c => .text [c] := by
    have hsplit : (" " ++ (stageText title stage ++ cause.message)).toList =
        (" " ++ stageText title stage).toList ++ '[' :: 'E' :: tail := by
      rw [← String.append_assoc, ← hmessage]
      exact String.toList_append
    rw [hsplit, Console.piecesAfter_append hfront hlast, hbracket,
      Console.piecesAfter_of_notMem (by simpa using htail hpaths)]
    simp only [List.map_append, List.map_cons]
  have hrender := Console.render_styled_of_pieces "error" (m := "Error:") (by decide +kernel)
    (by decide) (by decide) hplain
  rw [← String.append_assoc] at hrender
  exact ⟨_, hrender⟩

/-- All that is printed of a run is right markup. -/
def Legible (quiet : Bool) (title : String) : Except RunFault RunResult → Prop
  | .ok result => (quiet = true ∨ Console.Shown title) ∧ Console.Shown (summaryMarkup result)
  | .error (.stage stage cause) => Console.Shown (failureMarkup title stage cause)
  | .error _ => True

/-- What is printed of a run is right markup if there is no bracket in the name of the project and
in the paths, and no backslash in that of the directory. -/
theorem legible_of_notMem {quiet : Bool} {outcome : Except RunFault RunResult}
    (htitle : '[' ∉ title.toList)
    (hroot : ∀ result, outcome = .ok result →
      '[' ∉ result.root.text.toList ∧ '\\' ∉ result.root.text.toList)
    (hcause : ∀ stage cause, outcome = .error (.stage stage cause) →
      ∀ p ∈ cause.paths, '[' ∉ p.toList) : Legible quiet title outcome := by
  cases outcome with
  | ok result =>
    obtain ⟨hopen, hescape⟩ := hroot result rfl
    exact ⟨.inr ⟨_, Console.render_of_notMem htitle⟩, summary_shown hopen hescape⟩
  | error fault =>
    cases fault with
    | stage stage cause => exact failure_shown htitle (hcause stage cause rfl)
    | snapshot fault => exact trivial
    | escaped fault => exact trivial

end Texts

theorem absolute_of_prune {fs : FileSystem} {faults : List (String × Fault)}
    {rule : PreservationRule} {path : Path} {used : List String} {policies : PolicySet}
    {journal : List Record}
    (h : ((diskTools faults rule).prune path used policies ⟨fs, journal⟩).1 = .ok result) :
    fs.absolute path = .ok result.root := by
  rcases hsnapshot : diskSnapshot path ⟨fs, journal⟩ with ⟨fault | l, r⟩
  · have hrun : (diskTools faults rule).prune path used policies ⟨fs, journal⟩ =
        (.error fault, r) :=
      Action.bind_run_error hsnapshot
    rw [hrun] at h
    cases h
  · obtain ⟨-, habs, -⟩ := diskSnapshot_ok hsnapshot
    obtain ⟨hagree, -⟩ := pruneListing_matches_runPlan (diskTools_blind faults rule) l used policies
      r r rfl
    rw [Tools.prune_run hsnapshot used policies] at h
    rw [h] at hagree
    generalize ((diskTools faults rule).runPlan _ r).1 = planned at hagree
    cases hagree with
    | ok hresult => rw [habs, hresult]

/-! ### Steps of the command -/

/-- The lines of a text are among those that are printed. -/
def Printed (stream : Stream) (text : String) (lines : List Console.Line) : Prop :=
  ∃ before after, lines = before ++ (Console.laidOutLines text).map (⟨stream, ·⟩) ++ after

namespace Command

section Steps

variable {α : Type} {tools : Tools FileSystem} {env : Environment} {verbose quiet : Bool}
  {r : ProjectRequest} {policies : PolicySet} {result : RunResult} {stage : Stage}
  {cause : CallFailure} {name : String} {run : Run FileSystem} {s : Session}

theorem print_run_of_not_shown (stream : Stream) {markup : String} (h : ¬ Console.Shown markup)
    (s : Session) : ∃ fault, (print stream markup).run s = (.error (.markup fault), s) := by
  unfold print
  cases hrender : Console.render markup with
  | ok text => exact absurd ⟨text, hrender⟩ h
  | error fault => exact ⟨fault, rfl⟩

theorem warning_appends {message : String} (hopen : '[' ∉ message.toList) (s : Session) :
    ∃ after, (warning message).run s = (.ok (), ⟨s.files, s.lines ++ after⟩) := by
  obtain ⟨lines, hwarning⟩ := warning_run hopen s
  unfold warning print at hwarning ⊢
  split at hwarning
  · exact ⟨_, rfl⟩
  · cases hwarning

/-- The command goes through if what it prints is right, and otherwise the markup ends it. -/
def PrintsIf (p : Prop) (c : Command Unit) : Prop :=
  ∀ s, (p → (c.run s).1 = .ok ()) ∧ (¬ p → ∃ fault, (c.run s).1 = .error (.markup fault))

namespace PrintsIf

variable {p q : Prop} {c d : Command Unit}

theorem congr (h : p ↔ q) (hc : PrintsIf p c) : PrintsIf q c := by
  intro s
  obtain ⟨hright, hwrong⟩ := hc s
  exact ⟨fun hq => hright (h.2 hq), fun hq => hwrong (mt h.1 hq)⟩

theorem print (stream : Stream) (markup : String) :
    PrintsIf (Console.Shown markup) (print stream markup) := by
  intro s
  constructor
  · intro hshown
    obtain ⟨text, htext⟩ := hshown
    obtain ⟨lines, hprint⟩ := print_run htext s
    rw [hprint]
  · intro hwrong
    obtain ⟨fault, hprint⟩ := print_run_of_not_shown stream hwrong s
    rw [hprint]
    exact ⟨fault, rfl⟩

theorem printTable (t : Table) : PrintsIf (∃ lines, t.lines = .ok lines) (printTable t) := by
  intro s
  unfold Command.printTable
  cases hlines : t.lines with
  | ok lines => exact ⟨fun _ => rfl, fun hnone => absurd ⟨lines, rfl⟩ hnone⟩
  | error fault => exact ⟨fun hsome => by simp at hsome, fun _ => ⟨fault, rfl⟩⟩

theorem bind (hc : PrintsIf p c) (hd : PrintsIf q d) : PrintsIf (p ∧ q) (c >>= fun _ => d) := by
  intro s
  obtain ⟨hright, hwrong⟩ := hc s
  rcases hrun : c.run s with ⟨outcome, s'⟩
  rw [hrun] at hright hwrong
  by_cases hp : p
  · obtain rfl := hright hp
    obtain ⟨hright', hwrong'⟩ := hd s'
    rw [bind_run_ok hrun]
    exact ⟨fun hboth => hright' hboth.2, fun hnot => hwrong' fun hq => hnot ⟨hp, hq⟩⟩
  · obtain ⟨fault, rfl⟩ := hwrong hp
    rw [bind_run_error hrun]
    exact ⟨fun hboth => absurd hboth.1 hp, fun _ => ⟨fault, rfl⟩⟩

/-- The report of a result goes through just if all of it is right markup. -/
theorem reportResult (quiet : Bool) (title : String) (result : RunResult) :
    PrintsIf (Legible quiet title (.ok result)) (do
      if !quiet then
        Command.printTable (resultTable [(title, result)])
      success ("Removed " ++ toString result.removed.length ++ " path(s) from " ++
        result.root.text)) := by
  have hsummary := print .output (summaryMarkup result)
  cases quiet with
  | true =>
    simp only [Bool.not_true, Bool.false_eq_true, if_false]
    exact hsummary.congr (by simp [Legible])
  | false =>
    simp only [Bool.not_false, if_true]
    have htable := (printTable (resultTable [(title, result)])).congr resultTable_lines_ok_iff
    exact (htable.bind hsummary).congr (by simp [Legible])

end PrintsIf

/-- A failure in a stage is reported just if the text about it is right markup. -/
theorem reportRun_run_of_stage (name : String) (stage : Stage) (cause : CallFailure) (s : Session) :
    ∃ halt s', (reportRun name (.stage stage cause) : Command α).run s = (.error halt, s') ∧
      (Console.Shown (failureMarkup name stage cause) → halt = .reported ∧ ∃ text,
        Console.render (failureMarkup name stage cause) = .ok text ∧
          Printed .errors text s'.lines) ∧
      (¬ Console.Shown (failureMarkup name stage cause) → ∃ fault, halt = .markup fault) := by
  have hreport : (reportRun name (.stage stage cause) : Command α).run s =
      (print .errors (failureMarkup name stage cause) >>= fun _ =>
        warning "Paths removed before the failure were not restored." >>= fun _ =>
          throw .reported).run s := rfl
  by_cases hshown : Console.Shown (failureMarkup name stage cause)
  · obtain ⟨text, htext⟩ := hshown
    let s₁ : Session := ⟨s.files, s.lines ++ (Console.laidOutLines text).map (⟨.errors, ·⟩)⟩
    have hprint : (print .errors (failureMarkup name stage cause)).run s = (.ok (), s₁) := by
      unfold print
      rw [htext]
      rfl
    obtain ⟨after, hwarning⟩ :=
      @warning_appends "Paths removed before the failure were not restored." (by decide) s₁
    refine ⟨.reported, ⟨s₁.files, s₁.lines ++ after⟩, ?_, fun _ => ⟨rfl, ?_⟩, absurd ⟨text, htext⟩⟩
    · rw [hreport, bind_run_ok hprint, bind_run_ok hwarning]
      rfl
    · exact ⟨text, htext, s.lines, after, rfl⟩
  · obtain ⟨fault, hprint⟩ := print_run_of_not_shown .errors hshown s
    refine ⟨.markup fault, s, ?_, fun h => absurd h hshown, fun _ => ⟨fault, rfl⟩⟩
    rw [hreport, bind_run_error hprint]

theorem pruneProject_run_of_asked (hasked : r.noPolicy = r.chosen.isEmpty) (s : Session) :
    (pruneProject env tools verbose quiet r).run s =
      (runOn tools verbose r.title r.root r.packages r.chosen >>= fun result => do
        if !quiet then
          printTable (resultTable [(r.title, result)])
        success ("Removed " ++ toString result.removed.length ++ " path(s) from " ++
          result.root.text)).run s := by
  rw [pruneProject, bind_run_ok (projectPolicies_run_of_asked hasked)]

section Asked

variable {fs : FileSystem} (hasked : r.noPolicy = r.chosen.isEmpty)

include hasked

theorem pruneProject_run_of_ok
    (h : tools.prune r.root r.packages r.chosen ⟨fs, []⟩ = (.ok result, run)) :
    let ended := (pruneProject env tools verbose quiet r).run ⟨fs, []⟩
    (Legible quiet r.title (.ok result) → ended.1 = .ok ()) ∧
      (¬ Legible quiet r.title (.ok result) → ∃ fault, ended.1 = .error (.markup fault)) := by
  intro ended
  obtain ⟨lines, hdone⟩ : ∃ lines,
      (runOn tools verbose r.title r.root r.packages r.chosen).run ⟨fs, []⟩ =
        (.ok result, ⟨run.world, lines⟩) := runOn_run h
  have hended : ended = _ := pruneProject_run_of_asked hasked ⟨fs, []⟩
  rw [bind_run_ok hdone] at hended
  rw [hended]
  exact PrintsIf.reportResult quiet r.title result ⟨run.world, lines⟩

theorem pruneProject_run_of_stage
    (h : tools.prune r.root r.packages r.chosen ⟨fs, []⟩ =
      (.error (.stage stage cause), run)) :
    ∃ halt s', (pruneProject env tools verbose quiet r).run ⟨fs, []⟩ = (.error halt, s') ∧
      (Console.Shown (failureMarkup r.title stage cause) → halt = .reported ∧ ∃ text,
        Console.render (failureMarkup r.title stage cause) = .ok text ∧
          Printed .errors text s'.lines) ∧
      (¬ Console.Shown (failureMarkup r.title stage cause) → ∃ fault, halt = .markup fault) := by
  obtain ⟨lines, hrun⟩ := runAction_run verbose (tools.prune r.root r.packages r.chosen) ⟨fs, []⟩
  rw [h] at hrun
  obtain ⟨halt, s', hreport, hcases⟩ :=
    @reportRun_run_of_stage RunResult r.title stage cause ⟨run.world, lines⟩
  have hstopped : (runOn tools verbose r.title r.root r.packages r.chosen).run ⟨fs, []⟩ =
      (.error halt, s') := (bind_run_ok hrun).trans hreport
  refine ⟨halt, s', ?_, hcases⟩
  rw [pruneProject_run_of_asked hasked, bind_run_error hstopped]

end Asked

end Steps

end Command

/-! ### The law -/

/-- The command tells by its end what the run came to: its exit code is 0 for a result, and
otherwise it stops with a failure that it has reported by a text that shows the stage. -/
structure TellsOutcome (outcome : Except RunFault RunResult)
    (ended : Except Halt Unit × Session) : Prop where
  completed : exitCode ended.1 = 0 ↔ ∃ result, outcome = .ok result
  reported : ended.1 = .error .reported ↔ ∃ fault, outcome = .error fault
  named : ∀ fault, outcome = .error fault → ∃ stage cause text, fault = .stage stage cause ∧
    (": stage '" ++ stage.label ++ "' failed: ").toList <:+: text.toList ∧
      Printed .errors text ended.2.lines

namespace TellsOutcome

variable {ended : Except Halt Unit × Session}

theorem of_ok {result : RunResult} (h : ended.1 = .ok ()) : TellsOutcome (.ok result) ended where
  completed := iff_of_true (by rw [h]; rfl) ⟨result, rfl⟩
  reported := iff_of_false (by simp [h]) (by simp)
  named fault hfault := by cases hfault

theorem of_stage {title text : String} {stage : Stage} {cause : CallFailure}
    (h : ended.1 = .error .reported)
    (hrender : Console.render (failureMarkup title stage cause) = .ok text)
    (hprinted : Printed .errors text ended.2.lines) :
    TellsOutcome (.error (.stage stage cause)) ended where
  completed := iff_of_false (by rw [h]; exact Nat.one_ne_zero) (by simp)
  reported := iff_of_true h ⟨_, rfl⟩
  named fault hfault := by
    obtain rfl := Except.error.inj hfault
    exact ⟨stage, cause, text, rfl, stage_isInfix hrender, hprinted⟩

end TellsOutcome

/-- A request to prune a directory that can be listed does what the run does, and its exit code
tells what that comes to, unless the texts that are printed of it are no right markup: then these
end it. -/
theorem runProgram_project_tells (env : Environment) (fs : FileSystem)
    (faults : List (String × Fault)) (rule : PreservationRule) (arguments : List String)
    {settings : Settings} {r : ProjectRequest} {root : Path}
    (hrequest : readRequest arguments = .ok (settings, .project r))
    (hasked : r.noPolicy = r.chosen.isEmpty) (hroot : fs.absolute r.root = .ok root)
    (hdir : fs.isDirectory root = .ok true) (hlistable : ¬ fs.Unlistable root)
    (hfaults : ∀ f ∈ faults, f.2 ≠ .unusable) :
    let outcome := (diskTools faults rule).prune r.root r.packages r.chosen ⟨fs, []⟩
    let ended := runProgram env (diskTools faults rule) arguments fs
    ended.2.files = outcome.2.world ∧
      (Legible settings.quiet r.title outcome.1 → TellsOutcome outcome.1 ended) ∧
      (¬ Legible settings.quiet r.title outcome.1 →
        ∃ fault, ended.1 = .error (.markup fault)) := by
  intro outcome ended
  have hended : ended = (Command.pruneProject env (diskTools faults rule) settings.verbose
      settings.quiet r).run ⟨fs, []⟩ :=
    runProgram_project (diskTools faults rule) env fs hrequest
  have hfiles : ended.2.files = outcome.2.world := by
    rw [hended]
    exact Command.files_pruneProject (Command.projectPolicies_run_of_asked hasked)
  refine ⟨hfiles, ?_⟩
  obtain ⟨hends, hunlisted⟩ : Ends fs outcome ∧
      ((∃ fault, outcome.1 = .error (.snapshot fault)) ↔ fs.Unlistable root) :=
    prune_ends fs faults rule r.root root r.packages r.chosen [] true hfaults hroot hdir
  have hran : (diskTools faults rule).prune r.root r.packages r.chosen ⟨fs, []⟩ = outcome := rfl
  -- from here on the run is known by how it ends alone
  clear_value outcome
  cases hends with
  | unlisted fault journal => exact absurd (hunlisted.1 ⟨fault, rfl⟩) hlistable
  | completed result run =>
    rw [hended]
    obtain ⟨hright, hwrong⟩ := Command.pruneProject_run_of_ok hasked hran
    exact ⟨fun hlegible => .of_ok (hright hlegible), hwrong⟩
  | stopped stage cause run =>
    obtain ⟨halt, s', hstopped, hright, hwrong⟩ := Command.pruneProject_run_of_stage hasked hran
    rw [hended, hstopped]
    refine ⟨fun hlegible => ?_, fun hillegible => ?_⟩
    · obtain ⟨hreported, text, hrender, hprinted⟩ := hright hlegible
      exact .of_stage (congrArg _ hreported) hrender hprinted
    · obtain ⟨fault, hfault⟩ := hwrong hillegible
      exact ⟨fault, congrArg _ hfault⟩

/-- A directory with a project whose only file is a test. -/
def testedProject : FileSystem where
  store := [(["w"], "p", .directory), (["w", "p"], "x_test.go", .file ⟨#[1]⟩)].foldl
    (fun s (entry : Key × String × Node) => s.insert entry.1 entry.2.1 entry.2.2)
    (Store.empty.insert [] "w" .directory)
  here := ⟨["w"], 0⟩

theorem testedProject_readable : testedProject.Readable (Path.ofString "/w/p") :=
  FileSystem.readable_of_entries (by decide +kernel) (by decide +kernel) (by decide +kernel)

def testedRequest : ProjectRequest :=
  { root := Path.ofString "/w/p", policies := .ofList [.goTests] }

/-- The tests of a project are removed, and the exit code is 0. -/
theorem runProgram_project_tells_tested :
    let arguments := ["prune", "project", "--go-tests", "/w/p"]
    readRequest arguments = .ok ({}, .project testedRequest) ∧
      exitCode (runProgram ⟨"/w/home", none⟩ (diskTools [] .standard) arguments testedProject).1 =
        0 := by
  intro arguments
  have hrequest : readRequest arguments = .ok ({}, .project testedRequest) := rfl
  have habs : testedProject.absolute testedRequest.root = .ok (Path.ofString "/w/p") :=
    ok_of_toOption (by decide +kernel)
  have hdir : testedProject.isDirectory (Path.ofString "/w/p") = .ok true :=
    ok_of_toOption (by decide +kernel)
  obtain ⟨result, hresult, -⟩ := prune_leaves_survivors testedProject (Path.ofString "/w/p") []
    .standard [] (.ofList [.goTests]) testedProject_readable
  have hrun : ((diskTools [] .standard).prune testedRequest.root testedRequest.packages
      testedRequest.chosen ⟨testedProject, []⟩).1 = .ok result := hresult
  have hlistable : ¬ testedProject.Unlistable (Path.ofString "/w/p") := by
    intro hunlistable
    obtain ⟨-, hunlisted⟩ := prune_ends testedProject [] .standard testedRequest.root _
      testedRequest.packages testedRequest.chosen [] true (by simp) habs hdir
    obtain ⟨fault, hfault⟩ := hunlisted.2 hunlistable
    rw [hrun] at hfault
    cases hfault
  obtain ⟨-, htells, -⟩ := runProgram_project_tells ⟨"/w/home", none⟩ testedProject [] .standard
    arguments hrequest (by decide) habs hdir hlistable (by simp)
  have hroot : result.root = Path.ofString "/w/p" :=
    Except.ok.inj ((absolute_of_prune hrun).symm.trans habs)
  rw [hrun] at htells
  refine ⟨hrequest,
    (htells (legible_of_notMem (by decide +kernel) ?_ ?_)).completed.2 ⟨result, rfl⟩⟩
  · intro result' hresult'
    obtain rfl := Except.ok.inj hresult'
    rw [hroot]
    decide +kernel
  · intro stage cause hfails
    cases hfails

/-- The run on a project goes through and takes its test, but the name that is given to the project
closes a tag that was never opened. The table of what was done ends the command, with exit code
1. -/
theorem runProgram_project_unclosed :
    let arguments := ["prune", "project", "/w/p", "--go-tests", "--name", "[/b]"]
    let request := { testedRequest with name := some "[/b]" }
    let outcome := (diskTools [] .standard).prune request.root request.packages request.chosen
      ⟨testedProject, []⟩
    let ended := runProgram ⟨"/w/home", none⟩ (diskTools [] .standard) arguments testedProject
    readRequest arguments = .ok ({}, .project request) ∧ testedProject.Readable request.root ∧
      (∃ result, outcome.1 = .ok result) ∧ ended.2.files = outcome.2.world ∧
      (∀ contents, ended.2.files.store.get? ["w", "p", "x_test.go"] ≠ some (.file contents)) ∧
      (∃ fault, ended.1 = .error (.markup fault)) ∧ exitCode ended.1 ≠ 0 := by
  intro arguments request outcome ended
  have hrequest : readRequest arguments = .ok ({}, .project request) := rfl
  have hasked : request.noPolicy = request.chosen.isEmpty := by decide
  obtain ⟨result, hresult, hleft⟩ := prune_leaves_survivors testedProject (Path.ofString "/w/p") []
    .standard [] (.ofList [.goTests]) testedProject_readable
  have hrun : outcome = (.ok result, outcome.2) := Prod.ext hresult rfl
  have hended :=
    runProgram_project (diskTools [] .standard) ⟨"/w/home", none⟩ testedProject hrequest
  have hfiles : ended.2.files = outcome.2.world := by
    show (runProgram _ _ arguments testedProject).2.files = _
    rw [hended]
    exact Command.files_pruneProject (Command.projectPolicies_run_of_asked hasked)
  have hworld : (testedProject.pruneRun [] .standard (Path.ofString "/w/p") []
      (.ofList [.goTests])).2 = outcome.2.world := rfl
  have hgone : ∀ contents,
      ended.2.files.store.get? ["w", "p", "x_test.go"] ≠ some (.file contents) := by
    intro contents hstays
    rw [hfiles, ← hworld] at hstays
    have htaken := ((hleft.files ["x_test.go"] contents).1 hstays).2
    exact absurd htaken (by decide +kernel)
  have htitle : ¬ Console.Shown request.title := by
    rintro ⟨text, htext⟩
    have hnone : (Console.render request.title).toOption = none := by decide +kernel
    rw [htext] at hnone
    cases hnone
  obtain ⟨-, hwrong⟩ := Command.pruneProject_run_of_ok hasked hrun
  rw [← hended] at hwrong
  obtain ⟨fault, hfault⟩ := hwrong fun hlegible => htitle (hlegible.1.resolve_left (by decide))
  refine ⟨hrequest, testedProject_readable, ⟨result, congrArg Prod.fst hrun⟩, hfiles, hgone,
    ⟨fault, hfault⟩, ?_⟩
  rw [hfault]
  exact Nat.one_ne_zero

end VendorTree
