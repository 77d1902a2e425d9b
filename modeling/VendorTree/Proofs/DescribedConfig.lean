import VendorTree.Config.Writer
import VendorTree.Proofs.AcceptedConfig
import VendorTree.Proofs.ValueForms

/-!
# Descriptions of configurations

A configuration is described by the document that the writer has in mind: the choices under their
preferred keys, and the entries of the projects, if there are any, with what they choose. The schema
accepts the description of a configuration, and as that configuration.
-/

namespace VendorTree

/-! ### Checks that find no error -/

namespace Checked

variable {α : Type}

theorem items_ok {check : Data → Checked α} {describe : α → Data} {as : List α}
    (h : ∀ a ∈ as, check (describe a) = .ok a) (position : Nat) :
    items check position (as.map describe) = .ok as :=
  items_eq_ok.2 (List.forall₂_map_left_iff.2 (List.forall₂_same.2 h))

end Checked

namespace TableFields

theorem checkNoExtra_ok {fields : TableFields} {keys : List (List String)}
    (h : ∀ field ∈ fields, ∃ ks ∈ keys, fields.find? ks = some field) :
    fields.checkNoExtra keys = .ok () := by
  have hextra : fields.filter (fun field =>
      field.1 ∉ keys.filterMap fun ks => (fields.find? ks).map Prod.fst) = [] := by
    rw [List.filter_eq_nil_iff]
    intro field hfield
    obtain ⟨ks, hks, hfind⟩ := h field hfield
    simpa using ⟨ks, hks, field.2, hfind⟩
  simp only [checkNoExtra, hextra]
  rfl

end TableFields

/-! ### Choices -/

namespace Config

open Toml (Entry)

theorem isPlainKey_choiceKey (p : Policy) : Toml.IsPlainKey (choiceKey p) := by
  cases p <;> decide

theorem choiceKey_inj {p q : Policy} (h : choiceKey p = choiceKey q) : p = q := by
  revert h
  cases p <;> cases q <;> decide

/-- The choices for some policies under their preferred keys. -/
def choiceEntries (choice : Policy → Option Bool) (policies : List Policy) : List Entry :=
  policies.filterMap fun p =>
    (choice p).map fun b => ⟨choiceKey p, .bool b, isPlainKey_choiceKey p⟩

/-- The fields of the choices for all policies. -/
def choiceFields (choice : Policy → Option Bool) : TableFields :=
  (choiceEntries choice Policy.all).map Entry.field

variable {choice : Policy → Option Bool}

theorem mem_choiceEntries {policies : List Policy} {e : Entry}
    (h : e ∈ choiceEntries choice policies) :
    ∃ p ∈ policies, ∃ b, choice p = some b ∧ e.field = (choiceKey p, .bool b) := by
  obtain ⟨p, hp, he⟩ := List.mem_filterMap.1 h
  obtain ⟨b, hb, rfl⟩ := Option.map_eq_some_iff.1 he
  exact ⟨p, hp, b, hb, rfl⟩

theorem mem_choiceFields {f : String × Data} :
    f ∈ choiceFields choice ↔ ∃ p b, choice p = some b ∧ f = (choiceKey p, .bool b) := by
  constructor
  · intro h
    obtain ⟨e, he, rfl⟩ := List.mem_map.1 h
    obtain ⟨p, _, b, hb, hfield⟩ := mem_choiceEntries he
    exact ⟨p, b, hb, hfield⟩
  · rintro ⟨p, b, hb, rfl⟩
    refine List.mem_map.2 ⟨⟨choiceKey p, .bool b, isPlainKey_choiceKey p⟩, ?_, rfl⟩
    exact List.mem_filterMap.2 ⟨p, p.mem_all, by rw [hb]; rfl⟩

theorem nodup_choiceEntries (choice : Policy → Option Bool) {policies : List Policy}
    (h : policies.Nodup) : ((choiceEntries choice policies).map Entry.key).Nodup := by
  induction policies with
  | nil => exact List.nodup_nil
  | cons p policies ih =>
    obtain ⟨hp, hmore⟩ := List.nodup_cons.1 h
    cases hchoice : choice p with
    | none => simpa [choiceEntries, hchoice] using ih hmore
    | some b =>
      have hnew : choiceKey p ∉ (choiceEntries choice policies).map Entry.key := by
        intro hmem
        obtain ⟨e, he, hkey⟩ := List.mem_map.1 hmem
        obtain ⟨q, hq, _, _, hfield⟩ := mem_choiceEntries he
        exact hp (choiceKey_inj (hkey.symm.trans (congrArg Prod.fst hfield)) ▸ hq)
      simpa [choiceEntries, hchoice] using List.nodup_cons.2 ⟨hnew, ih hmore⟩

theorem keys_eq (p : Policy) : p.keys = choiceKey p :: p.keys.tail := by cases p <;> rfl

theorem choiceKey_notMem {p q : Policy} (h : q ≠ p) : choiceKey q ∉ p.keys := by
  revert h
  cases p <;> cases q <;> decide

variable {fields : TableFields}

/-- Among fields of which only those of choices have keys of policies, the choice for a policy is
found under its preferred key. -/
theorem find?_choice (hnodup : (fields.map Prod.fst).Nodup)
    (hchoices : ∀ f ∈ choiceFields choice, f ∈ fields)
    (hothers : ∀ f ∈ fields, f ∈ choiceFields choice ∨ ∀ p : Policy, f.1 ∉ p.keys) (p : Policy) :
    fields.find? p.keys = (choice p).map fun b => (choiceKey p, .bool b) := by
  cases hchoice : choice p with
  | some b =>
    have hmem := hchoices _ (mem_choiceFields.2 ⟨p, b, hchoice, rfl⟩)
    rw [keys_eq, TableFields.find?_of_mem hnodup hmem]
    rfl
  | none =>
    refine TableFields.find?_eq_none_iff.2 fun f hf => ?_
    rcases hothers f hf with hf | hf
    · obtain ⟨q, b, hb, rfl⟩ := mem_choiceFields.1 hf
      exact choiceKey_notMem fun heq => by simp [← heq, hb] at hchoice
    · exact hf p

end Config

/-! ### Entries of projects -/

namespace Override

open Config (choiceFields choiceEntries)

/-- The fields of an entry, as they are written. -/
def entries (o : Override) : List Toml.Entry :=
  ⟨"name", .text o.project, by decide⟩ :: choiceEntries o.choices.get Policy.all

theorem name_notMem_keys (p : Policy) : "name" ∉ p.keys := by cases p <;> decide

theorem nodup_entries (o : Override) : (o.entries.map Toml.Entry.key).Nodup := by
  refine List.nodup_cons.2 ⟨fun h => ?_, Config.nodup_choiceEntries _ (by decide)⟩
  obtain ⟨e, he, hkey⟩ := List.mem_map.1 h
  obtain ⟨p, _, _, _, hfield⟩ := Config.mem_choiceEntries he
  refine name_notMem_keys p ?_
  have hname : Config.choiceKey p = "name" := (congrArg Prod.fst hfield).symm.trans hkey
  rw [Config.keys_eq, ← hname]
  exact List.mem_cons_self

/-- The schema accepts the fields of an entry as that entry. -/
theorem ofData_entries (o : Override) : ofData (Toml.tableData o.entries) = .ok o := by
  obtain ⟨fields, hfields⟩ : ∃ fields : TableFields,
      o.entries.map Toml.Entry.field = fields := ⟨_, rfl⟩
  have hform : fields = ("name", .text o.project) :: choiceFields o.choices.get := hfields.symm
  have hnodup : (fields.map Prod.fst).Nodup := by
    rw [← hfields, List.map_map]
    exact o.nodup_entries
  have hfind : ∀ p : Policy,
      fields.find? p.keys = (o.choices.get p).map fun b => (Config.choiceKey p, .bool b) := by
    refine Config.find?_choice hnodup (fun f hf => hform ▸ List.mem_cons_of_mem _ hf) ?_
    intro f hf
    rcases List.mem_cons.1 (hform ▸ hf) with rfl | hf
    · exact .inr name_notMem_keys
    · exact .inl hf
  have hchoice (p : Policy) :
      fields.checkOr p.keys none Data.toOptionalBool = .ok (o.choices.get p) := by
    rw [TableFields.checkOr, hfind]
    cases o.choices.get p <;> rfl
  have hname : fields.checkName = .ok o.name := by
    have hlookup : fields.lookup "name" = some (.text o.project) := by rw [hform]; rfl
    rw [TableFields.checkName, hlookup]
    exact congrArg (Checked.under "name") (dif_neg o.name.property)
  -- each field is the first one with a key of its group, so none is left over
  have hextra : fields.checkNoExtra (["name"] :: choiceKeys) = .ok () := by
    refine TableFields.checkNoExtra_ok fun f hf => ?_
    rcases List.mem_cons.1 (hform ▸ hf) with rfl | hf
    · exact ⟨["name"], by simp, TableFields.find?_of_mem hnodup (hform ▸ List.mem_cons_self) []⟩
    · obtain ⟨p, b, hb, rfl⟩ := Config.mem_choiceFields.1 hf
      exact ⟨p.keys, List.mem_cons_of_mem _ (List.mem_map_of_mem p.mem_all), by rw [hfind, hb]; rfl⟩
  rw [Toml.tableData, hfields, ofData]
  simp only [hname, hchoice, hextra]
  rfl

end Override

/-! ### Configurations -/

namespace Config

open Toml (Entry)

/-- The choices for all projects as they are written. -/
def policyEntries (s : PolicySet) : List Entry :=
  choiceEntries (fun p => some (s.has p)) Policy.all

/-- The list of the entries of the projects. -/
def overridesData (os : List Override) : Data := .list (os.map fun o => Toml.tableData o.entries)

/-- The fields of the table under `prune`. Without entries of projects there is no list of them. -/
def sectionFields (c : Config) : TableFields :=
  (policyEntries c.policies).map Entry.field ++
    if c.overrides = [] then [] else [("project", overridesData c.overrides)]

/-- The document that describes a configuration. -/
def document (c : Config) : Data := .table [("prune", .table c.sectionFields)]

theorem project_notMem_keys (p : Policy) : "project" ∉ p.keys := by cases p <;> decide

theorem choiceKey_notMem_projectKeys (p : Policy) : choiceKey p ∉ projectKeys := by
  cases p <;> decide

variable (c : Config)

theorem mem_sectionFields {f : String × Data} :
    f ∈ c.sectionFields ↔ f ∈ choiceFields (fun p => some (c.policies.has p)) ∨
      c.overrides ≠ [] ∧ f = ("project", overridesData c.overrides) := by
  rw [sectionFields, List.mem_append]
  refine or_congr Iff.rfl ?_
  split <;> simp_all

theorem nodup_sectionFields : (c.sectionFields.map Prod.fst).Nodup := by
  have hpolicies : (((policyEntries c.policies).map Entry.field).map Prod.fst).Nodup := by
    rw [List.map_map]
    exact nodup_choiceEntries _ (by decide)
  have hproject : "project" ∉ ((policyEntries c.policies).map Entry.field).map Prod.fst := by
    intro h
    obtain ⟨f, hf, hkey⟩ := List.mem_map.1 h
    obtain ⟨p, b, _, rfl⟩ := mem_choiceFields.1 hf
    have hname : choiceKey p = "project" := hkey
    exact choiceKey_notMem_projectKeys p (by rw [hname]; exact List.mem_cons_self)
  rw [sectionFields, List.map_append]
  split
  · simpa using hpolicies
  · exact List.nodup_append.2 ⟨hpolicies, by simp, by
      rintro k hk k' hk' rfl
      obtain rfl : k = "project" := List.mem_singleton.1 hk'
      exact hproject hk⟩

theorem find?_keys (p : Policy) :
    c.sectionFields.find? p.keys = some (choiceKey p, .bool (c.policies.has p)) := by
  refine find?_choice c.nodup_sectionFields (fun f hf => c.mem_sectionFields.2 (.inl hf)) ?_ p
  intro f hf
  refine (c.mem_sectionFields.1 hf).imp_right ?_
  rintro ⟨_, rfl⟩
  exact project_notMem_keys

theorem checkOr_keys (p : Policy) (default : Bool) :
    c.sectionFields.checkOr p.keys default Data.toBool = .ok (c.policies.has p) := by
  rw [TableFields.checkOr, find?_keys]
  rfl

theorem find?_projectKeys (h : c.overrides ≠ []) :
    c.sectionFields.find? projectKeys = some ("project", overridesData c.overrides) :=
  TableFields.find?_of_mem c.nodup_sectionFields (c.mem_sectionFields.2 (.inr ⟨h, rfl⟩)) _

theorem checkOr_projectKeys :
    c.sectionFields.checkOr projectKeys [] (Data.toListOf Override.ofData) = .ok c.overrides := by
  rw [TableFields.checkOr]
  by_cases h : c.overrides = []
  · have hnone : c.sectionFields.find? projectKeys = none := by
      refine TableFields.find?_eq_none_iff.2 fun f hf => ?_
      rcases c.mem_sectionFields.1 hf with hf | ⟨hsome, _⟩
      · obtain ⟨p, b, _, rfl⟩ := mem_choiceFields.1 hf
        exact choiceKey_notMem_projectKeys p
      · exact absurd h hsome
    rw [hnone, h]
  · rw [c.find?_projectKeys h]
    exact congrArg (Checked.under "project") (Checked.items_ok (fun o _ => o.ofData_entries) 0)

theorem checkNoExtra_sectionFields :
    c.sectionFields.checkNoExtra (projectKeys :: choiceKeys) = .ok () := by
  refine TableFields.checkNoExtra_ok fun f hf => ?_
  rcases c.mem_sectionFields.1 hf with hf | ⟨hsome, rfl⟩
  · obtain ⟨p, b, hb, rfl⟩ := mem_choiceFields.1 hf
    exact ⟨p.keys, List.mem_cons_of_mem _ (List.mem_map_of_mem p.mem_all),
      by rw [find?_keys, Option.some.inj hb]⟩
  · exact ⟨projectKeys, List.mem_cons_self, c.find?_projectKeys hsome⟩

theorem ofSection_sectionFields : ofSection (.table c.sectionFields) = .ok c := by
  rw [ofSection]
  simp only [checkOr_keys, checkOr_projectKeys, checkNoExtra_sectionFields]
  exact ofOverrides_distinct c.distinct

/-- The schema accepts the description of a configuration as that configuration. -/
theorem ofData_document : ofData c.document = .ok c := by
  obtain ⟨fields, hfields⟩ : ∃ fields : TableFields,
    fields = [("prune", .table c.sectionFields)] := ⟨_, rfl⟩
  have hfind : fields.find? ["prune"] = some ("prune", .table c.sectionFields) := by
    rw [hfields]
    rfl
  have hsection : fields.checkOr ["prune"] standard ofSection = .ok c := by
    rw [TableFields.checkOr, hfind]
    exact congrArg (Checked.under "prune") c.ofSection_sectionFields
  have hextra : fields.checkNoExtra [["prune"]] = .ok () := by
    refine TableFields.checkNoExtra_ok fun f hf => ⟨["prune"], by simp, ?_⟩
    rw [hfields, List.mem_singleton] at hf
    rw [hfind, hf]
  rw [document, ← hfields, ofData]
  simp only [hsection, hextra]
  rfl

end Config

end VendorTree
