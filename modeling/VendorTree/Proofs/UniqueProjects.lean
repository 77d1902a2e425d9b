import VendorTree.Lock
import VendorTree.Proofs.AcceptedConfig

/-!
# Projects occur once

A configuration has one entry for a project and a lock document one project of a name. The first is
checked in one pass over the names and the second by counting each of them. Both checks go through
for the same names, and where they do not, they tell the same names.
-/

namespace VendorTree

variable {α : Type} {names repeats : List String} {title : String} {found : Data}

/-- The check goes through exactly if the names are different. Otherwise it tells the repeated names
after a title. -/
structure Checked.TellsRepeats (check : Checked α) (names repeats : List String) (title : String)
    (found : Data) : Prop where
  accepts : (∃ a, check = .ok a) ↔ names.Nodup
  rejects : ¬ names.Nodup → check = .reject (.value (title ++ Text.quotedList repeats)) found

theorem Checked.tellsRepeats_of_cases {check : Checked α} (hrepeats : RepeatsOf names repeats)
    (hdistinct : names.Nodup → ∃ a, check = .ok a)
    (hrepeated : repeats ≠ [] →
      check = .reject (.value (title ++ Text.quotedList repeats)) found) :
    check.TellsRepeats names repeats title found := by
  have hrejects (h : ¬ names.Nodup) :
      check = .reject (.value (title ++ Text.quotedList repeats)) found :=
    hrepeated fun hnone => h (hrepeats.eq_nil_iff.1 hnone)
  refine ⟨⟨?_, hdistinct⟩, hrejects⟩
  intro ⟨a, ha⟩
  by_contra hsome
  exact absurd ((hrejects hsome).symm.trans ha) reject_ne_ok

namespace Lock

variable {projects : List LockedProject}

theorem ofProjects_distinct (h : (projects.map LockedProject.project).Nodup) :
    ofProjects found projects = .ok ⟨projects, h⟩ :=
  dif_pos (repeatsByCount_eq_nil h)

theorem ofProjects_repeated (h : RepeatsOf (projects.map LockedProject.project) repeats)
    (hsome : repeats ≠ []) :
    ofProjects found projects =
      .reject (.value ("Projects locked more than once: " ++ Text.quotedList repeats)) found := by
  obtain rfl := (repeatsByCount_spec _).unique h
  exact dif_neg hsome

end Lock

/-- The two ways to find the repeated names find the same ones, in order and each once. The check of
the entries of a configuration and that of the projects of a lock document go through exactly if the
names are different, and tell these repeated names otherwise. -/
theorem project_checks_agree (names : List String) :
    ∃ repeats, RepeatsOf names repeats ∧
      repeatsInOnePass names = repeats ∧ repeatsByCount names = repeats ∧
      (∀ policies overrides found, overrides.map Override.project = names →
        (Config.ofOverrides policies overrides found).TellsRepeats names repeats
          "Projects configured more than once: " found) ∧
      ∀ projects found, projects.map LockedProject.project = names →
        (Lock.ofProjects found projects).TellsRepeats names repeats
          "Projects locked more than once: " found := by
  have hrepeats := repeatsInOnePass_spec names
  refine ⟨repeatsInOnePass names, hrepeats, rfl,
    (repeatsByCount_spec names).unique hrepeats, ?_, ?_⟩
  · intro policies overrides found hnames
    subst hnames
    exact Checked.tellsRepeats_of_cases hrepeats
      (fun hdistinct => ⟨_, Config.ofOverrides_distinct hdistinct⟩)
      (Config.ofOverrides_repeated hrepeats)
  · intro projects found hnames
    subst hnames
    exact Checked.tellsRepeats_of_cases hrepeats
      (fun hdistinct => ⟨_, Lock.ofProjects_distinct hdistinct⟩)
      (Lock.ofProjects_repeated hrepeats)

theorem repeatsOf_crowded : RepeatsOf ["b", "a", "b", "c", "a", "b"] ["a", "b"] where
  increasing := by decide
  mem_iff n := by
    by_cases ha : n = "a"
    · subst ha
      decide
    by_cases hb : n = "b"
    · subst hb
      decide
    by_cases hc : n = "c"
    · subst hc
      decide
    · simp [ha, hb, Ne.symm ha, Ne.symm hb, Ne.symm hc]

/-- The names that come several times are told in order, whichever comes first. -/
theorem project_checks_agree_crowded :
    let names : List NonemptyText := [⟨"b", by decide⟩, ⟨"a", by decide⟩, ⟨"b", by decide⟩,
      ⟨"c", by decide⟩, ⟨"a", by decide⟩, ⟨"b", by decide⟩]
    let entries : List Override := names.map fun name => ⟨name, ⟨none, none, none, none⟩⟩
    let projects : List LockedProject := names.map fun name => ⟨name, none, none, [], by decide⟩
    entries.map Override.project = projects.map LockedProject.project ∧
    Config.ofOverrides standardPolicies entries (.table []) =
      .reject (.value "Projects configured more than once: ['a', 'b']") (.table []) ∧
    Lock.ofProjects (.table []) projects =
      .reject (.value "Projects locked more than once: ['a', 'b']") (.table []) := by
  intro names entries projects
  have hentries : entries.map Override.project = ["b", "a", "b", "c", "a", "b"] := by decide
  have hprojects : projects.map LockedProject.project = ["b", "a", "b", "c", "a", "b"] := by decide
  have hrepeated : ¬ ["b", "a", "b", "c", "a", "b"].Nodup := by decide
  have hlist : Text.quotedList ["a", "b"] = "['a', 'b']" := by decide +kernel
  obtain ⟨repeats, hrepeats, -, -, hconfig, hlock⟩ :=
    project_checks_agree ["b", "a", "b", "c", "a", "b"]
  obtain rfl := hrepeats.unique repeatsOf_crowded
  have hconfigured := (hconfig standardPolicies entries (.table []) hentries).rejects hrepeated
  have hlocked := (hlock projects (.table []) hprojects).rejects hrepeated
  rw [hlist] at hconfigured hlocked
  exact ⟨hentries.trans hprojects.symm, hconfigured, hlocked⟩

end VendorTree
