import Mathlib.Data.List.Perm.Basic
import VendorTree.Proofs.AcceptedConfig

/-!
# The order of entries

A project takes its policies from the one entry that has its name, wherever that entry stands in the
list. Since a document with two entries for a project is not accepted, the order of the entries says
nothing: a document in which they stand in another order is accepted as well, and for every project
it comes to the same policies. An entry that chooses against a policy is not one that does not
choose.
-/

namespace VendorTree

/-! ### Fields with another value -/

namespace TableFields

variable {before after : TableFields} {key : String} {d d' : Data}

/-- Another value of a field is found under the key of the field at most, and only in its place. -/
theorem lookup_replaced (k : String) :
    (before ++ (key, d') :: after).lookup k = (before ++ (key, d) :: after).lookup k ∨
      k = key ∧ (before ++ (key, d) :: after).lookup k = some d ∧
        (before ++ (key, d') :: after).lookup k = some d' := by
  simp only [List.lookup_append, List.lookup_cons]
  cases hbefore : before.lookup k with
  | some found => exact .inl rfl
  | none =>
    by_cases hk : k = key
    · subst hk
      simp
    · simp [beq_false_of_ne hk]

/-- A part is taken from the field with another value just if it was taken from that field
before. -/
theorem find?_replaced (keys : List String) :
    find? (before ++ (key, d') :: after) keys = find? (before ++ (key, d) :: after) keys ∨
      key ∈ keys ∧ find? (before ++ (key, d) :: after) keys = some (key, d) ∧
        find? (before ++ (key, d') :: after) keys = some (key, d') := by
  induction keys with
  | nil => exact .inl rfl
  | cons k rest ih =>
    simp only [find?, List.findSome?_cons]
    rcases @lookup_replaced before after key d d' k with hsame | ⟨rfl, hfirst, hother⟩
    · rw [hsame]
      cases (before ++ (key, d) :: after).lookup k with
      | some found => exact .inl rfl
      | none => exact ih.imp_right fun h => ⟨List.mem_cons_of_mem k h.1, h.2⟩
    · rw [hfirst, hother]
      exact .inr ⟨List.mem_cons_self, rfl, rfl⟩

variable {α : Type} {keys : List String} {default : α} {check : Data → Checked α}

theorem checkOr_replaced_of_notMem (h : key ∉ keys) :
    checkOr (before ++ (key, d') :: after) keys default check =
      checkOr (before ++ (key, d) :: after) keys default check := by
  rcases @find?_replaced before after key d d' keys with hsame | ⟨hkey, -⟩
  · rw [checkOr, checkOr, hsame]
  · exact absurd hkey h

/-- A part that is accepted is accepted with another value of its field if that value is, and what
the part means has not changed or has changed as the meaning of the value. -/
theorem checkOr_replaced {a : α} (related : α → α → Prop) (hself : related a a)
    (hok : checkOr (before ++ (key, d) :: after) keys default check = .ok a)
    (hvalue : check d = .ok a → ∃ a', check d' = .ok a' ∧ related a a') :
    ∃ a', checkOr (before ++ (key, d') :: after) keys default check = .ok a' ∧ related a a' := by
  rcases @find?_replaced before after key d d' keys with hsame | ⟨-, hfirst, hother⟩
  · rw [checkOr] at hok ⊢
    rw [hsame]
    exact ⟨a, hok, hself⟩
  · rw [checkOr, hfirst] at hok
    rw [checkOr, hother]
    obtain ⟨a', ha', hrelated⟩ := hvalue (Checked.under_eq_ok.1 hok)
    exact ⟨a', Checked.under_eq_ok.2 ha', hrelated⟩

theorem checkNoExtra_eq_ok_iff {fields : TableFields} {groups : List (List String)} :
    checkNoExtra fields groups = .ok () ↔ ∀ k ∈ fields.map Prod.fst,
      k ∈ groups.filterMap fun ks => (fields.find? ks).map Prod.fst := by
  have herrors : checkNoExtra fields groups = .ok () ↔
      (checkNoExtra fields groups).errors = [] := by
    refine ⟨fun h => congrArg Checked.errors h, fun h => ?_⟩
    obtain ⟨⟨⟩, hok⟩ := reasoned_checkNoExtra h
    exact hok
  rw [herrors, errors_checkNoExtra, List.map_eq_nil_iff, List.filter_eq_nil_iff]
  simp

theorem checkNoExtra_replaced {groups : List (List String)}
    (h : checkNoExtra (before ++ (key, d) :: after) groups = .ok ()) :
    checkNoExtra (before ++ (key, d') :: after) groups = .ok () := by
  have htaken (ks : List String) : (find? (before ++ (key, d') :: after) ks).map Prod.fst =
      (find? (before ++ (key, d) :: after) ks).map Prod.fst := by
    rcases @find?_replaced before after key d d' ks with hsame | ⟨-, hfirst, hother⟩
    · rw [hsame]
    · rw [hfirst, hother]
      rfl
  rw [checkNoExtra_eq_ok_iff] at h ⊢
  simpa only [htaken, List.map_append, List.map_cons] using h

end TableFields

/-! ### Documents with the entries in another order -/

/-- The section is another one, except that the entries of the projects stand in another order. -/
inductive Config.ReorderedSection : Data → Data → Prop
  | table {before after : TableFields} {key : String} {ds ds' : List Data}
    (hkey : key ∈ projectKeys) (h : ds.Perm ds') :
    ReorderedSection (.table (before ++ (key, .list ds) :: after))
      (.table (before ++ (key, .list ds') :: after))

/-- The document is another one, except that the entries of the projects stand in another order. -/
inductive Config.Reordered : Data → Data → Prop
  | table {before after : TableFields} {d d' : Data} (h : ReorderedSection d d') :
    Reordered (.table (before ++ ("prune", d) :: after)) (.table (before ++ ("prune", d') :: after))

namespace Config

/-- The entries of the configuration are those of another one, perhaps in another order. -/
structure SameEntries (c c' : Config) : Prop where
  policies : c'.policies = c.policies
  overrides : c.overrides.Perm c'.overrides

theorem SameEntries.refl (c : Config) : c.SameEntries c := ⟨rfl, .refl _⟩

/-- The items of a list are checked one by one, so their order does not matter to the check. -/
theorem toListOf_reordered {ds ds' : List Data} {os : List Override} (h : ds.Perm ds')
    (hok : (Data.list ds).toListOf Override.ofData = .ok os) :
    ∃ os', (Data.list ds').toListOf Override.ofData = .ok os' ∧ os.Perm os' := by
  have hitems := Checked.items_eq_ok.1 hok
  obtain ⟨os', hitems', hperm⟩ := List.perm_comp_forall₂ h.symm hitems
  exact ⟨os', Checked.items_eq_ok.2 hitems', hperm.symm⟩

theorem ofSection_reordered {d d' : Data} {c : Config} (h : ReorderedSection d d')
    (hok : ofSection d = .ok c) : ∃ c', ofSection d' = .ok c' ∧ c.SameEntries c' := by
  obtain ⟨hkey, hperm⟩ := h
  rw [ofSection_table, Checked.andThen_eq_ok] at hok
  obtain ⟨⟨policies, overrides⟩, hparts, hconfig⟩ := hok
  obtain ⟨rfl, rfl⟩ := ofOverrides_eq_ok.1 hconfig
  obtain ⟨hchoices, hentries, hextra⟩ := checkParts_eq_ok.1 hparts
  obtain ⟨os', hentries', hos⟩ := TableFields.checkOr_replaced List.Perm (.refl _) hentries
    fun hlist => toListOf_reordered hperm hlist
  have hdistinct : (os'.map Override.project).Nodup :=
    (hos.map Override.project).nodup_iff.1 c.distinct
  have hotherKeys (p : Policy) := fun hmem : _ ∈ p.keys =>
    (List.pairwise_cons.1 disjoint_groups).1 p.keys (List.mem_map_of_mem p.mem_all) hkey hmem
  refine ⟨⟨c.policies, os', hdistinct⟩, ?_, rfl, hos⟩
  rw [ofSection_table, Checked.andThen_eq_ok]
  refine ⟨(c.policies, os'), checkParts_eq_ok.2 ⟨fun p => ?_, hentries', ?_⟩,
    ofOverrides_eq_ok.2 ⟨rfl, rfl⟩⟩
  · exact (TableFields.checkOr_replaced_of_notMem (hotherKeys p)).trans (hchoices p)
  · exact TableFields.checkNoExtra_replaced hextra

theorem ofData_reordered {data data' : Data} {c : Config} (h : Reordered data data')
    (hok : ofData data = .ok c) : ∃ c', ofData data' = .ok c' ∧ c.SameEntries c' := by
  obtain ⟨hsection⟩ := h
  obtain ⟨_, hmap, _, hextra, rfl⟩ := Checked.seq_eq_ok.1 hok
  obtain ⟨config, hconfig, rfl⟩ := Checked.map_eq_ok.1 hmap
  obtain ⟨c', hconfig', hsame⟩ := TableFields.checkOr_replaced SameEntries (.refl _) hconfig
    fun hread => ofSection_reordered hsection hread
  refine ⟨c', Checked.seq_eq_ok.2 ⟨_, Checked.map_eq_ok.2 ⟨c', hconfig', rfl⟩, (), ?_, rfl⟩, hsame⟩
  exact TableFields.checkNoExtra_replaced hextra

/-! ### The policies of a project -/

theorem eq_of_project_eq {c : Config} {o other : Override} (h : o ∈ c.overrides)
    (hother : other ∈ c.overrides) (heq : other.project = o.project) : other = o :=
  List.inj_on_of_nodup_map c.distinct hother h heq

/-- The policies of a project with an entry are judged by that entry, wherever it stands. -/
theorem policiesFor_of_mem {c : Config} {o : Override} (h : o ∈ c.overrides) :
    c.policiesFor o.project = .ofTest fun p => (o.choices.get p).getD (c.policies.has p) := by
  rw [policiesFor]
  cases hfound : c.overrides.find? fun other => other.project = o.project with
  | none =>
    rw [List.find?_eq_none] at hfound
    exact absurd (decide_eq_true rfl) (hfound o h)
  | some other =>
    have hproject : other.project = o.project := by simpa using List.find?_some hfound
    rw [eq_of_project_eq h (List.mem_of_find?_eq_some hfound) hproject]

/-- A project without an entry has the policies of all projects. -/
theorem policiesFor_of_notMem {c : Config} {project : String}
    (h : ∀ o ∈ c.overrides, o.project ≠ project) : c.policiesFor project = c.policies := by
  have hnone : c.overrides.find? (fun o => o.project = project) = none := by
    rw [List.find?_eq_none]
    exact fun o ho heq => h o ho (of_decide_eq_true heq)
  rw [policiesFor, hnone]

/-- A policy applies to a project if its entry chooses it, or if it applies to all projects and no
entry of the project says otherwise. -/
theorem policiesFor_has_iff (c : Config) (project : String) (p : Policy) :
    (c.policiesFor project).has p = true ↔
      (∃ o ∈ c.overrides, o.project = project ∧ o.choices.get p = some true) ∨
        (∀ o ∈ c.overrides, o.project = project → o.choices.get p = none) ∧
          c.policies.has p = true := by
  by_cases hentry : ∃ o ∈ c.overrides, o.project = project
  · obtain ⟨o, ho, rfl⟩ := hentry
    have hchosen : (∃ other ∈ c.overrides, other.project = o.project ∧
        other.choices.get p = some true) ↔ o.choices.get p = some true := by
      refine ⟨?_, fun h => ⟨o, ho, rfl, h⟩⟩
      rintro ⟨other, hother, heq, h⟩
      rwa [← eq_of_project_eq ho hother heq]
    have hunset : (∀ other ∈ c.overrides, other.project = o.project →
        other.choices.get p = none) ↔ o.choices.get p = none := by
      refine ⟨fun h => h o ho rfl, fun h other hother heq => ?_⟩
      rwa [eq_of_project_eq ho hother heq]
    rw [policiesFor_of_mem ho, PolicySet.has_ofTest, hchosen, hunset]
    cases o.choices.get p <;> simp
  · have hnone (o : Override) (ho : o ∈ c.overrides) : o.project ≠ project :=
      fun heq => hentry ⟨o, ho, heq⟩
    rw [policiesFor_of_notMem hnone]
    constructor
    · exact fun h => .inr ⟨fun o ho heq => absurd heq (hnone o ho), h⟩
    · rintro (⟨o, ho, heq, -⟩ | ⟨-, h⟩)
      · exact absurd heq (hnone o ho)
      · exact h

/-- The order of the entries does not matter to the policies of a project. -/
theorem SameEntries.policiesFor_eq {c c' : Config} (h : c.SameEntries c') (project : String) :
    c'.policiesFor project = c.policiesFor project := by
  apply PolicySet.ext_has
  intro p
  rw [Bool.eq_iff_iff, policiesFor_has_iff, policiesFor_has_iff, h.policies]
  simp only [h.overrides.mem_iff]

/-- A document that is accepted is accepted with its entries in any other order, and comes to the
same policies for every project. A policy applies to a project if the entry of the project chooses
it, or if it applies to all projects and no entry of the project says otherwise. -/
theorem policiesFor_any_order {data : Data} {c : Config} (haccepted : ofData data = .ok c) :
    (∀ data', Reordered data data' → ∃ c', ofData data' = .ok c' ∧ c.SameEntries c' ∧
      ∀ project, c'.policiesFor project = c.policiesFor project) ∧
    ∀ project p, (c.policiesFor project).has p = true ↔
      (∃ o ∈ c.overrides, o.project = project ∧ o.choices.get p = some true) ∨
        (∀ o ∈ c.overrides, o.project = project → o.choices.get p = none) ∧
          c.policies.has p = true := by
  refine ⟨fun data' hreordered => ?_, policiesFor_has_iff c⟩
  obtain ⟨c', hok, hsame⟩ := ofData_reordered hreordered haccepted
  exact ⟨c', hok, hsame, hsame.policiesFor_eq⟩

/-- The fields of an entry with a choice against a policy. -/
def refusingEntry : Data := .table [("name", .text "a"), ("nested-vendor", .bool false)]

/-- The fields of an entry that leaves that policy open and chooses another one. -/
def openEntry : Data :=
  .table [("go-tests", .int 1), ("name", .text "b"), ("nested-vendor", .null)]

theorem policiesFor_any_order_swapped : ∃ c c',
    ofData (.table [("prune", .table [("project", .list [refusingEntry, openEntry])])]) = .ok c ∧
    ofData (.table [("prune", .table [("project", .list [openEntry, refusingEntry])])]) = .ok c' ∧
    (c.overrides.map Override.project = ["a", "b"] ∧ c.policies.has .nestedVendor = true) ∧
    c'.policiesFor "a" = c.policiesFor "a" ∧ (c.policiesFor "a").has .nestedVendor = false ∧
    (c.policiesFor "b").has .nestedVendor = true ∧ (c.policiesFor "b").has .goTests = true := by
  let c : Config := ⟨standardPolicies, [⟨⟨"a", by decide⟩, ⟨some false, none, none, none⟩⟩,
    ⟨⟨"b", by decide⟩, ⟨none, none, none, some true⟩⟩], by decide⟩
  have haccepted : ofData (.table [("prune",
      .table [("project", .list [refusingEntry, openEntry])])]) = .ok c := by
    have hsection := @ofOverrides_distinct c.policies c.overrides
      (.table [("project", .list [refusingEntry, openEntry])]) c.distinct
    exact congrArg
      (fun x => (fun c (_ : Unit) => c) <$> Checked.under "prune" x <*> .ok ()) hsection
  have hswapped : ReorderedSection (.table [("project", .list [refusingEntry, openEntry])])
      (.table [("project", .list [openEntry, refusingEntry])]) :=
    @ReorderedSection.table [] [] _ _ _ (by decide) (.swap openEntry refusingEntry [])
  obtain ⟨hreordered, hhas⟩ := policiesFor_any_order haccepted
  obtain ⟨c', hok, -, hsame⟩ := hreordered _ (@Reordered.table [] [] _ _ hswapped)
  refine ⟨c, c', haccepted, hok, ⟨rfl, rfl⟩, hsame "a", ?_, ?_, ?_⟩
  · rw [Bool.eq_false_iff, ne_eq, hhas]
    decide
  · rw [hhas]
    decide
  · rw [hhas]
    decide

end Config

end VendorTree
