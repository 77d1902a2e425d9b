import VendorTree.Loading
import VendorTree.Proofs.DescribedConfig
import VendorTree.Proofs.DocumentLines
import VendorTree.Proofs.EntryPath

/-!
# Written configurations

What is written for a configuration is read as the document that describes it, in both of the forms
that the entries of the projects can have: as one list, and as a table for each entry.
-/

namespace VendorTree

open Toml (Entry Leads)

namespace Config

/-! ### What is written -/

theorem policies_eq (s : PolicySet) :
    writePolicies s = (policyEntries s).flatMap fun e => line e.form := rfl

theorem overridePairs_eq (o : Override) : overridePairs o = o.entries.map Entry.form := by
  rw [overridePairs, Override.entries, choiceEntries, List.map_cons, List.map_filterMap]
  simp only [Option.map_map]
  rfl

theorem item_eq (o : Override) : line (overrideItem o) = Toml.itemForm o.entries := by
  simp [line, overrideItem, Toml.itemForm, Toml.tableForm, Toml.lineForms, overridePairs_eq]

theorem overrideList_eq (os : List Override) :
    overrideList os =
      line (Toml.writePair "project" (Toml.listForm (os.map Override.entries))) := by
  simp only [overrideList, item_eq]
  simp [line, Toml.writePair, Toml.listForm, List.flatMap_map]

theorem overrideTable_eq (o : Override) :
    overrideTable o = line [] ++ (line "[[prune.project]]".toList ++
      o.entries.flatMap fun e => line e.form) := by
  rw [overrideTable, overridePairs_eq, List.flatMap_map, List.append_assoc]

/-! ### No carriage return is written -/

theorem notMem_entryForm (e : Entry) : '\r' ∉ e.form := by
  have hkey : '\r' ∉ e.key.toList := fun h => absurd (e.plain.2 _ h) (by decide)
  have hleaf : '\r' ∉ e.leaf.form := by
    cases e.leaf with
    | text s => exact Toml.notMem_writeText s.toList
    | bool b => cases b <;> decide
  simp [Entry.form, Toml.writePair, hkey, hleaf]

theorem notMem_entryLines (entries : List Entry) :
    '\r' ∉ entries.flatMap fun e => line e.form := by
  simp [line, notMem_entryForm]

theorem notMem_lineForms (entries : List Entry) : '\r' ∉ Toml.lineForms entries := by
  rw [Toml.lineForms, mem_intercalate_iff (by decide)]
  simp [notMem_entryForm]

theorem notMem_listForm (rows : List (List Entry)) : '\r' ∉ Toml.listForm rows := by
  simp [Toml.listForm, Toml.itemForm, Toml.tableForm, notMem_lineForms]

theorem notMem_writeOverrides (os : List Override) : '\r' ∉ writeOverrides os := by
  have htable (o : Override) : '\r' ∉ overrideTable o := by
    rw [overrideTable_eq, List.mem_append, List.mem_append, not_or, not_or]
    exact ⟨by decide, by decide, notMem_entryLines o.entries⟩
  rw [writeOverrides]
  split
  · simp
  split
  · rw [overrideList_eq]
    simp [line, Toml.writePair, notMem_listForm]
  · simp [htable]

theorem notMem_write (c : Config) : '\r' ∉ c.write.toList := by
  rw [write, String.toList_ofList, List.mem_append, List.mem_append, not_or, not_or, policies_eq]
  exact ⟨⟨by decide, notMem_entryLines _⟩, notMem_writeOverrides c.overrides⟩

/-! ### What is read -/

open Toml.Fields (IsPlace isPlace_nil)

/-- The document in which the table under `prune` has some fields. -/
def pruneDraft (fields : Toml.Fields) : Toml.Fields := [("prune", .table .declared fields)]

theorem isPlace_pruneDraft {header : List String} {build : Toml.Fields → Toml.Fields}
    (h : IsPlace header build) :
    IsPlace ("prune" :: header) fun fields => pruneDraft (build fields) :=
  have hplace : IsPlace ("prune" :: header) fun fields =>
    [] ++ [("prune", .table .declared (build fields))] := h.table rfl .declared
  hplace

variable {before : List (String × Data)}

/-- The document in which the list of the projects ends with the table of `o`. -/
def tablesDraft (before : List (String × Data)) (finished : List Data) (o : Override) :
    Toml.Fields :=
  pruneDraft (Toml.valueFields before ++
    [("project", .tables finished (Toml.valueFields (o.entries.map Entry.field)))])

/-- The table of an entry follows what was there before, and becomes the last of the list. -/
theorem leads_overrideTable (hproject : (Toml.valueFields before).lookup "project" = none)
    {fields : Toml.Fields} {finished : List Data}
    (hnext : Toml.Fields.beginNext ["prune"] "project" fields =
      .ok (pruneDraft (Toml.valueFields before ++ [("project", .tables finished [])])))
    (header : List String) (o : Override) (rest : List Char) :
    Leads ⟨fields, header⟩ (overrideTable o ++ rest)
      ⟨tablesDraft before finished o, ["prune", "project"]⟩ rest := by
  have hplace := isPlace_pruneDraft (isPlace_nil.tables hproject finished)
  have hdistinct : (([] : List (String × Data)).map Prod.fst ++ o.entries.map Entry.key).Nodup := by
    simpa using o.nodup_entries
  rw [overrideTable_eq, List.append_assoc, List.append_assoc]
  exact (Toml.leads_emptyLine _ _).trans
    ((Toml.leads_projectHeader hnext header _).trans (Toml.leads_entries hplace _ hdistinct rest))

/-- The tables of further entries follow the one of `o`. -/
theorem exists_leads_overrideTables (hproject : (Toml.valueFields before).lookup "project" = none)
    (os : List Override) (finished : List Data) (o : Override) (rest : List Char) :
    ∃ finished' o', Leads ⟨tablesDraft before finished o, ["prune", "project"]⟩
        (os.flatMap overrideTable ++ rest)
        ⟨tablesDraft before finished' o', ["prune", "project"]⟩ rest ∧
      finished' ++ [Toml.tableData o'.entries] =
        finished ++ (o :: os).map fun o => Toml.tableData o.entries := by
  induction os generalizing finished o with
  | nil => exact ⟨finished, o, Leads.refl _ _, rfl⟩
  | cons o₂ os ih =>
    obtain ⟨finished', o', hmore, hdata⟩ := ih (finished ++ [Toml.tableData o.entries]) o₂
    refine ⟨finished', o', ?_, by simpa using hdata⟩
    have hnext := (isPlace_pruneDraft isPlace_nil).beginNext_more hproject finished
      (Toml.valueFields (o.entries.map Entry.field))
    rw [Toml.finishFields_valueFields] at hnext
    rw [List.flatMap_cons, List.append_assoc]
    exact (leads_overrideTable hproject hnext _ o₂ _).trans hmore

/-- The list of entries is read as the value under its key. -/
theorem leads_overrideList (hproject : (Toml.valueFields before).lookup "project" = none)
    (os : List Override) (rest : List Char) :
    Leads ⟨pruneDraft (Toml.valueFields before), ["prune"]⟩ (overrideList os ++ rest)
      ⟨pruneDraft (Toml.valueFields before ++ [("project", .value (overridesData os))]),
        ["prune"]⟩ rest := by
  have hform : Toml.IsForm 5 (Toml.listForm (os.map Override.entries)) (overridesData os) := by
    have hrows : ∀ entries ∈ os.map Override.entries,
        entries ≠ [] ∧ (entries.map Entry.key).Nodup := by
      intro entries hentries
      obtain ⟨o, _, rfl⟩ := List.mem_map.1 hentries
      exact ⟨List.cons_ne_nil _ _, o.nodup_entries⟩
    have hlist := Toml.isForm_listForm hrows
    rwa [List.map_map] at hlist
  rw [overrideList_eq]
  exact Toml.leads_assignment (isPlace_pruneDraft isPlace_nil) (by decide) hform (by decide)
    hproject rest

/-- The entries of the projects are read in either form. -/
theorem exists_leads_writeOverrides (hproject : (Toml.valueFields before).lookup "project" = none)
    (os : List Override) (rest : List Char) :
    ∃ p, Leads ⟨pruneDraft (Toml.valueFields before), ["prune"]⟩ (writeOverrides os ++ rest)
        p rest ∧
      Toml.finishFields p.fields = [("prune", .table (before ++
        if os = [] then [] else [("project", overridesData os)]))] := by
  rw [writeOverrides]
  split_ifs with hnone hshort
  · exact ⟨_, Leads.refl _ _, by simp [pruneDraft, Toml.finishFields, Toml.Draft.finish]⟩
  · exact ⟨_, leads_overrideList hproject os rest,
      by simp [pruneDraft, Toml.finishFields, Toml.Draft.finish]⟩
  · obtain ⟨o, os, rfl⟩ := List.exists_cons_of_ne_nil hnone
    have hnext := (isPlace_pruneDraft isPlace_nil).beginNext_new hproject
    obtain ⟨finished, o', hmore, hdata⟩ := exists_leads_overrideTables hproject os [] o rest
    refine ⟨⟨tablesDraft before finished o', ["prune", "project"]⟩, ?_, ?_⟩
    · rw [List.flatMap_cons, List.append_assoc]
      exact (leads_overrideTable hproject hnext _ o _).trans hmore
    · simp only [tablesDraft, pruneDraft, Toml.finishFields, Toml.Draft.finish,
        Toml.finishFields_append, Toml.finishFields_valueFields]
      rw [← Toml.tableData, hdata]
      rfl

theorem readDocument_write (c : Config) : Toml.readDocument c.write = .ok c.document := by
  have hproject : (Toml.valueFields ((policyEntries c.policies).map Entry.field)).lookup "project" =
      none := by
    rw [Toml.lookup_valueFields, Option.map_eq_none_iff, List.lookup_eq_none_iff]
    intro f hf
    obtain ⟨p, b, _, rfl⟩ := mem_choiceFields.1 hf
    cases p <;> rfl
  obtain ⟨p, hoverrides, hfields⟩ := exists_leads_writeOverrides hproject c.overrides []
  have hdistinct : (([] : List (String × Data)).map Prod.fst ++
      (policyEntries c.policies).map Entry.key).Nodup := nodup_choiceEntries _ (by decide)
  have hpolicies := Toml.leads_entries (isPlace_pruneDraft isPlace_nil) (policyEntries c.policies)
    hdistinct (writeOverrides c.overrides ++ [])
  have hall : Leads ⟨[], []⟩ c.write.toList p [] := by
    rw [write, String.toList_ofList, List.append_assoc, policies_eq,
      ← List.append_nil (writeOverrides c.overrides)]
    exact (Toml.leads_pruneHeader _).trans (hpolicies.trans hoverrides)
  rw [Toml.readDocument, Toml.unifyLineEnds_eq c.notMem_write]
  simp only [hall.readLines, bind, Except.bind]
  rw [hfields]
  rfl

theorem fromUTF8?_toUTF8 (s : String) : String.fromUTF8? s.toUTF8 = some s := dif_pos s.isValidUTF8

/-- What is written for a configuration is decoded as that configuration. -/
theorem decodeDocument_write (c : Config) : decodeDocument ofData c.write.toUTF8 = .ok c := by
  rw [decodeDocument, fromUTF8?_toUTF8]
  simp only [c.readDocument_write, c.ofData_document]

end Config

end VendorTree
