import VendorTree.CommandLine.Request
import VendorTree.Proofs.ActionSteps

/-!
# The arguments of the command for one project

Arguments that are read as a request to prune a project name the command `prune project` and ask
neither for help nor for the version. The request holds what their options say, and nothing else of
the arguments has a part in it.
-/

namespace VendorTree

open CommandLine

/-- The arguments ask for the pruning of one project, with these options and this directory. -/
inductive AsksToPrune (arguments : List String) (given : Arguments ProjectOption) (root : Path) :
    Prop
  | intro {outer : Arguments ProgramOption} {inner : Arguments Unit} {rest rest' : List String}
    {text : String}
    (program : readArguments ProgramOption.rules false arguments = .ok outer)
    (noInformation : ProgramOption.urgent? outer = none)
    (prune : outer.operands = "prune" :: rest)
    (command : readArguments helpRules false rest = .ok inner)
    (noHelp : inner.has () = false)
    (project : inner.operands = "project" :: rest')
    (options : readArguments ProjectOption.rules true rest' = .ok given)
    (noProjectHelp : given.has .help = false)
    (operand : given.operands = [text])
    (directory : pathOf text = .ok root)

/-- What is asked for with these options. -/
def ProjectRequest.ofGiven (given : Arguments ProjectOption) (root : Path) : ProjectRequest where
  root := root
  packages := given.values .package
  name := given.value? .name
  config := (given.value? .config).map Path.ofString
  policies := .ofTest fun policy => given.has (.policy policy)
  everyPolicy := given.has .all
  noPolicy := given.has .none

section Reading

variable {arguments : List String} {settings : Settings} {r : ProjectRequest}

theorem optionalPath_ok {text? : Option String} {path? : Option Path}
    (h : optionalPath text? = .ok path?) : path? = text?.map Path.ofString := by
  cases text? with
  | none => exact (Except.ok.inj h).symm
  | some text =>
    rw [optionalPath, pathOf] at h
    split at h
    · cases h
    · exact (Except.ok.inj h).symm

theorem readProject_project (h : readProject arguments = .ok (.project r)) :
    ∃ given text root, readArguments ProjectOption.rules true arguments = .ok given ∧
      given.has .help = false ∧ given.operands = [text] ∧ pathOf text = .ok root ∧
      r = .ofGiven given root := by
  obtain ⟨given, hgiven, h⟩ := exists_of_except_bind h
  by_cases hhelp : given.has .help = true
  · simp [hhelp, Pure.pure, Except.pure] at h
  simp only [hhelp] at h
  obtain ⟨config, hconfig, h⟩ := exists_of_except_bind h
  split at h
  · cases h
  · rename_i text rest hoperands
    obtain ⟨root, hroot, h⟩ := exists_of_except_bind h
    by_cases hrest : rest = []
    · refine ⟨given, text, root, hgiven, by simpa using hhelp, by rw [hoperands, hrest], hroot, ?_⟩
      simp only [hrest] at h
      obtain rfl := optionalPath_ok hconfig
      exact (Request.project.inj (Except.ok.inj h)).symm
    · simp [hrest] at h
      cases h

/-- No request that is granted first is one to prune a project. -/
theorem urgent_ne_project {a : Arguments ProgramOption} (r : ProjectRequest) :
    ProgramOption.urgent? a ≠ some (.project r) := by
  intro h
  obtain ⟨g, -, hg⟩ := List.exists_of_findSome?_eq_some h
  split at hg <;> cases hg

theorem helpAmong_ne_project {κ : Type} [DecidableEq κ] {help : κ} {a : Arguments κ}
    (r : ProjectRequest) : helpAmong? help a ≠ some (.project r) := by
  unfold helpAmong?
  split <;> nofun

theorem readStray_ne_project {κ : Type} {rules : List (OptionRule κ)}
    {urgent? : Arguments κ → Option Request} (hurgent : ∀ a, urgent? a ≠ some (.project r))
    (operands : List String) : readStray rules urgent? operands ≠ .ok (.project r) := by
  intro h
  cases operands with
  | nil => cases h
  | cons name rest =>
    obtain ⟨a, -, h⟩ := exists_of_except_bind h
    split at h
    · rename_i request hrequest
      exact hurgent a (hrequest.trans (congrArg some (Except.ok.inj h)))
    · cases h

theorem readCreate_ne_project (r : ProjectRequest) : readCreate arguments ≠ .ok (.project r) := by
  intro h
  obtain ⟨a, -, h⟩ := exists_of_except_bind h
  split at h
  · cases h
  obtain ⟨output, -, h⟩ := exists_of_except_bind h
  split at h
  · exact readStray_ne_project (fun _ => helpAmong_ne_project r) _ h
  · cases h

theorem readCheck_ne_project (r : ProjectRequest) : readCheck arguments ≠ .ok (.project r) := by
  intro h
  obtain ⟨a, -, h⟩ := exists_of_except_bind h
  split at h
  · cases h
  split at h
  · cases h
  · cases h

theorem readVendor_ne_project (r : ProjectRequest) : readVendor arguments ≠ .ok (.project r) := by
  intro h
  obtain ⟨a, -, h⟩ := exists_of_except_bind h
  split at h
  · cases h
  obtain ⟨lock, -, h⟩ := exists_of_except_bind h
  obtain ⟨config, -, h⟩ := exists_of_except_bind h
  obtain ⟨dir, -, h⟩ := exists_of_except_bind h
  split at h
  · cases h
  · cases h

theorem readPrune_project (h : readPrune arguments = .ok (.project r)) :
    ∃ inner rest, readArguments helpRules false arguments = .ok inner ∧ inner.has () = false ∧
      inner.operands = "project" :: rest ∧ readProject rest = .ok (.project r) := by
  obtain ⟨inner, hinner, h⟩ := exists_of_except_bind h
  split at h
  · cases h
  rename_i hhelp
  split at h
  · rename_i rest hoperands
    exact ⟨inner, rest, hinner, by simpa using hhelp, hoperands, h⟩
  · exact absurd h (readVendor_ne_project r)
  · exact absurd h (readStray_ne_project (fun _ => helpAmong_ne_project r) _)

theorem readRequest_project (h : readRequest arguments = .ok (settings, .project r)) :
    ∃ outer rest, readArguments ProgramOption.rules false arguments = .ok outer ∧
      ProgramOption.urgent? outer = none ∧ outer.operands = "prune" :: rest ∧
      readPrune rest = .ok (.project r) := by
  obtain ⟨outer, houter, h⟩ := exists_of_except_bind h
  have hpair : ∀ {x : Except Refusal Request} {settings' : Settings},
      (x >>= fun request => Except.ok (settings', request)) = .ok (settings, .project r) →
        x = .ok (.project r) := by
    intro x settings' hx
    obtain ⟨request, hx, hrequest⟩ := exists_of_except_bind hx
    rw [hx, (Prod.mk.inj (Except.ok.inj hrequest)).2]
  dsimp only at h
  split at h
  · rename_i request hrequest
    obtain rfl := (Prod.mk.inj (Except.ok.inj h)).2
    exact absurd hrequest (urgent_ne_project r)
  rename_i hurgent
  split at h
  · exact absurd (hpair h) (readCreate_ne_project r)
  · rename_i rest hoperands
    exact ⟨outer, rest, houter, hurgent, hoperands, hpair h⟩
  · exact absurd (hpair h) (readCheck_ne_project r)
  · exact absurd (hpair h) (readStray_ne_project (fun _ => urgent_ne_project r) _)

/-- Arguments that are read as a request to prune a project ask for that, with some options. -/
theorem exists_of_readRequest (h : readRequest arguments = .ok (settings, .project r)) :
    ∃ given, AsksToPrune arguments given r.root ∧ r = .ofGiven given r.root := by
  obtain ⟨outer, rest, houter, hurgent, hprune, h⟩ := readRequest_project h
  obtain ⟨inner, rest', hinner, hhelp, hproject, h⟩ := readPrune_project h
  obtain ⟨given, text, root, hgiven, hnoHelp, hoperands, hroot, rfl⟩ := readProject_project h
  exact ⟨given,
    ⟨houter, hurgent, hprune, hinner, hhelp, hproject, hgiven, hnoHelp, hoperands, hroot⟩, rfl⟩

end Reading

end VendorTree
