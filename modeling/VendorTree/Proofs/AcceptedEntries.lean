import VendorTree.Config.Schema
import VendorTree.Proofs.TruthValues

/-!
# Which values are entries of projects

What an entry must be is said here without reference to a check: which values fit, what those that
fit mean, and what is wrong with the others. The schema accepts the values that fit, as what they
mean, and finds exactly the faults of the others, each once.
-/

namespace VendorTree

/-- No table in the value has a key twice. -/
inductive Data.Keyed : Data → Prop
  | null : Keyed .null
  | bool (b : Bool) : Keyed (.bool b)
  | int (i : Int) : Keyed (.int i)
  | decimal (x : Decimal) : Keyed (.decimal x)
  | text (s : String) : Keyed (.text s)
  | moment (m : Moment) : Keyed (.moment m)
  | list {ds : List Data} (h : ∀ d ∈ ds, Keyed d) : Keyed (.list ds)
  | table {fields : TableFields} (distinct : (fields.map Prod.fst).Nodup)
    (h : ∀ f ∈ fields, Keyed f.2) : Keyed (.table fields)

/-- The value is a table with this name in it. -/
inductive Data.HasName : Data → String → Prop
  | table {fields : TableFields} {name : String} (h : ("name", .text name) ∈ fields) :
    HasName (.table fields) name

theorem Data.keyed_list_iff {ds : List Data} : (Data.list ds).Keyed ↔ ∀ d ∈ ds, d.Keyed := by
  constructor
  · intro h
    cases h with
    | list h => exact h
  · exact .list

theorem Data.keyed_table_iff {fields : TableFields} :
    (Data.table fields).Keyed ↔ (fields.map Prod.fst).Nodup ∧ ∀ f ∈ fields, f.2.Keyed := by
  constructor
  · intro h
    cases h with
    | table distinct h => exact ⟨distinct, h⟩
  · exact fun h => .table h.1 h.2

theorem Data.HasName.unique {d : Data} (h : d.Keyed) {name name' : String} (hname : d.HasName name)
    (hname' : d.HasName name') : name = name' := by
  cases h with
  | table hnodup _ =>
    cases hname with
    | table h =>
      cases hname' with
      | table h' => exact Data.text.inj (TableFields.value_unique hnodup h h')
  | _ => cases hname

/-! ### The choices for all policies -/

namespace Checked

variable {β γ : Type} {x : Checked (β → β → β → β → γ)} {check : Policy → Checked β}

/-- The choices for all policies, checked one after the other. -/
def choices (x : Checked (β → β → β → β → γ)) (check : Policy → Checked β) : Checked γ :=
  x <*> check .nestedVendor <*> check .unusedPackages <*> check .nonGo <*> check .goTests

theorem choices_eq_ok {c : γ} : choices x check = .ok c ↔
    ∃ g, x = .ok g ∧ ∃ choice : Policy → β, (∀ p, check p = .ok (choice p)) ∧
      g (choice .nestedVendor) (choice .unusedPackages) (choice .nonGo) (choice .goTests) = c := by
  simp only [choices, seq_eq_ok]
  constructor
  · rintro ⟨_, ⟨_, ⟨_, ⟨g, hg, v, hv, rfl⟩, u, hu, rfl⟩, n, hn, rfl⟩, t, ht, rfl⟩
    refine ⟨g, hg, fun p => Policy.casesOn (motive := fun _ => β) p v u n t, fun p => ?_, rfl⟩
    cases p with
    | nestedVendor => exact hv
    | unusedPackages => exact hu
    | nonGo => exact hn
    | goTests => exact ht
  · rintro ⟨g, hg, choice, hchoice, rfl⟩
    exact ⟨_, ⟨_, ⟨_, ⟨g, hg, _, hchoice .nestedVendor, rfl⟩, _, hchoice .unusedPackages, rfl⟩, _,
      hchoice .nonGo, rfl⟩, _, hchoice .goTests, rfl⟩

theorem errors_choices :
    (choices x check).errors = x.errors ++ Policy.all.flatMap fun p => (check p).errors := by
  simp [choices, Policy.all]

theorem Reasoned.choices (hx : x.Reasoned) (hcheck : ∀ p, (check p).Reasoned) :
    (choices x check).Reasoned :=
  (((hx.seq (hcheck _)).seq (hcheck _)).seq (hcheck _)).seq (hcheck _)

end Checked

/-! ### Entries of projects -/

namespace Override

/-- The keys of an entry, for each part of it. -/
abbrev groups : List (List String) := ["name"] :: choiceKeys

/-- The value is an entry of a project. -/
inductive Fits : Data → Prop
  | table {fields : TableFields} {name : String} (keys : fields.OnlyKeys groups)
    (named : ("name", .text name) ∈ fields) (nonempty : name ≠ "")
    (choices : ∀ p : Policy, ∀ f ∈ fields, f.1 ∈ p.keys → f.2 = .null ∨ ∃ b, f.2.MeansBool b) :
    Fits (.table fields)

/-- The value means this entry. -/
inductive Reads : Data → Override → Prop
  | table {fields : TableFields} {o : Override} (keys : fields.OnlyKeys groups)
    (named : ("name", .text o.project) ∈ fields)
    (choices : ∀ p, fields.Gives p.keys none Data.MeansChoice (o.choices.get p)) :
    Reads (.table fields) o

/-- What is wrong with the name in a table. -/
inductive OffendsName (fields : TableFields) : Issue → Prop
  | missing (h : ∀ f ∈ fields, f.1 ≠ "name") :
      OffendsName fields ⟨["name"], .missing, .table fields⟩
  | empty (h : ("name", .text "") ∈ fields) :
      OffendsName fields ⟨["name"], .stringTooShort, .text ""⟩
  | kind {d : Data} (h : ("name", d) ∈ fields) (hkind : ∀ s, d ≠ .text s) :
    OffendsName fields ⟨["name"], .stringType, d⟩

/-- What is wrong with a value as an entry. -/
inductive Offends : Data → Issue → Prop
  | noTable {d : Data} (h : ∀ fields, d ≠ .table fields) :
    Offends d ⟨[], .modelType "ProjectPruneConfig", d⟩
  | name {fields : TableFields} {i : Issue} (h : OffendsName fields i) : Offends (.table fields) i
  | choice {fields : TableFields} {p : Policy} {key : String} {d : Data} {c : Complaint}
    (h : fields.Takes p.keys key d) (hsome : d ≠ .null) (hd : d.NoBool c) :
    Offends (.table fields) ⟨[key], c, d⟩
  | extra {fields : TableFields} {key : String} {d : Data} (h : (key, d) ∈ fields)
    (hleft : fields.LeftOver groups key) : Offends (.table fields) ⟨[key], .extraForbidden, d⟩

theorem Offends.complaint_ne_value {d : Data} {i : Issue} (h : Offends d i) (reason : String) :
    i.complaint ≠ .value reason := by
  cases h with
  | noTable => exact nofun
  | name h => cases h <;> exact nofun
  | choice _ _ hd => exact hd.ne_value reason
  | extra => exact nofun

theorem disjoint_groups : groups.Pairwise List.Disjoint := by
  have h : groups.flatten.Nodup := by decide
  exact (List.nodup_flatten.1 h).2

theorem keys_mem_groups (p : Policy) : p.keys ∈ groups := by cases p <;> decide

variable {fields : TableFields}

theorem settles_checkName (hnodup : (fields.map Prod.fst).Nodup) :
    fields.checkName.Settles (fun name => ("name", .text name.val) ∈ fields)
      (OffendsName fields) where
  outcome := by
    rw [TableFields.checkName]
    cases hname : fields.lookup "name" with
    | none => exact .inr ⟨_, rfl, .missing (TableFields.lookup_eq_none_iff.1 hname)⟩
    | some d =>
      have hmem := (TableFields.lookup_eq_some_iff hnodup).1 hname
      cases d with
      | text s =>
        by_cases hs : s = ""
        · subst hs
          exact .inr ⟨_, rfl, .empty hmem⟩
        · refine .inl ⟨⟨s, hs⟩, ?_, hmem⟩
          exact congrArg (Checked.under "name") (dif_neg hs)
      | _ => exact .inr ⟨_, rfl, .kind hmem nofun⟩
  means_unique _ _ ha hb := Subtype.ext (Data.text.inj (TableFields.value_unique hnodup ha hb))
  wrong_unique := by
    have hone {d d' : Data} (hd : ("name", d) ∈ fields) (hd' : ("name", d') ∈ fields) : d = d' :=
      TableFields.value_unique hnodup hd hd'
    intro i j hi hj
    cases hi with
    | missing hnone =>
      cases hj with
      | missing => rfl
      | empty h => exact absurd rfl (hnone _ h)
      | kind h => exact absurd rfl (hnone _ h)
    | empty h =>
      cases hj with
      | missing hnone => exact absurd rfl (hnone _ h)
      | empty => rfl
      | kind h' hkind => exact absurd (hone h' h) (hkind "")
    | kind h hkind =>
      cases hj with
      | missing hnone => exact absurd rfl (hnone _ h)
      | empty h' => exact absurd (hone h h') (hkind "")
      | kind h' => rw [hone h h']
  apart name i hname hi := by
    have hone {d : Data} (hd : ("name", d) ∈ fields) : d = .text name.val :=
      TableFields.value_unique hnodup hd hname
    cases hi with
    | missing h => exact h _ hname rfl
    | empty h => exact name.property (Data.text.inj (hone h)).symm
    | kind h hkind => exact hkind _ (hone h)

theorem reasoned_checkName (fields : TableFields) : fields.checkName.Reasoned := by
  apply Checked.Reasoned.under
  split
  · exact Checked.reasoned_reject _ _
  · rename_i s _
    by_cases hs : s = ""
    · subst hs
      exact Checked.reasoned_reject _ _
    · exact (congrArg Checked.Reasoned (dif_neg hs)).mpr (Checked.reasoned_ok _)
  · exact Checked.reasoned_reject _ _

abbrev checkChoice (fields : TableFields) (p : Policy) : Checked (Option Bool) :=
  fields.checkOr p.keys none Data.toOptionalBool

/-- The entry with these parts. -/
def ofParts (name : NonemptyText) (v u n t : Option Bool) (_ : Unit) : Override :=
  ⟨name, ⟨v, u, n, t⟩⟩

theorem ofData_table : ofData (.table fields) =
    Checked.choices (ofParts <$> fields.checkName) (checkChoice fields)
      <*> fields.checkNoExtra groups := rfl

theorem ofData_table_eq_ok {o : Override} : ofData (.table fields) = .ok o ↔
    fields.checkName = .ok o.name ∧ (∀ p, checkChoice fields p = .ok (o.choices.get p)) ∧
      fields.checkNoExtra groups = .ok () := by
  rw [ofData_table, Checked.seq_eq_ok]
  constructor
  · rintro ⟨_, hchoices, _, hextra, rfl⟩
    obtain ⟨_, hstart, choice, hchoice, rfl⟩ := Checked.choices_eq_ok.1 hchoices
    obtain ⟨name, hname, rfl⟩ := Checked.map_eq_ok.1 hstart
    refine ⟨hname, fun p => ?_, hextra⟩
    cases p <;> exact hchoice _
  · rintro ⟨hname, hchoice, hextra⟩
    have hstart : ofParts <$> fields.checkName = .ok (ofParts o.name) :=
      Checked.map_eq_ok.2 ⟨o.name, hname, rfl⟩
    exact ⟨_, Checked.choices_eq_ok.2 ⟨_, hstart, o.choices.get, hchoice, rfl⟩, (), hextra, rfl⟩

theorem errors_ofData : (ofData (.table fields)).errors =
    fields.checkName.errors ++ (Policy.all.flatMap fun p => (checkChoice fields p).errors) ++
      (fields.checkNoExtra groups).errors := by
  rw [ofData_table, Checked.errors_seq, Checked.errors_choices, Checked.errors_map]

theorem reasoned_ofData (d : Data) : (ofData d).Reasoned := by
  cases d with
  | table fields =>
    have hchoice (p : Policy) : (checkChoice fields p).Reasoned :=
      TableFields.reasoned_checkOr fun d => (Data.settles_toOptionalBool d).reasoned
    exact (((reasoned_checkName fields).map _).choices hchoice).seq
      TableFields.reasoned_checkNoExtra
  | _ => exact Checked.reasoned_reject _ _

/-- The schema accepts a value as the entry that it means. -/
theorem ofData_eq_ok {d : Data} (h : d.Keyed) {o : Override} : ofData d = .ok o ↔ Reads d o := by
  cases h with
  | @table fields hnodup _ =>
    have hchoice (p : Policy) : checkChoice fields p = .ok (o.choices.get p) ↔
        fields.Gives p.keys none Data.MeansChoice (o.choices.get p) :=
      TableFields.checkOr_settled_eq_ok Data.settles_toOptionalBool hnodup
    rw [ofData_table_eq_ok, TableFields.checkNoExtra_eq_ok hnodup disjoint_groups,
      (settles_checkName hnodup).eq_ok]
    constructor
    · rintro ⟨hname, hchoices, hkeys⟩
      exact .table hkeys hname fun p => (hchoice p).1 (hchoices p)
    · intro hreads
      cases hreads with
      | table hkeys hname hchoices => exact ⟨hname, fun p => (hchoice p).2 (hchoices p), hkeys⟩
  | _ =>
    constructor
    · exact fun ho => absurd ho Checked.reject_ne_ok
    · exact fun hreads => nomatch hreads

theorem forall₂_ofData_iff {ds : List Data} (h : ∀ d ∈ ds, d.Keyed) {os : List Override} :
    List.Forall₂ (fun d o => ofData d = .ok o) ds os ↔ List.Forall₂ Reads ds os := by
  constructor
  · intro hos
    refine ((List.forall₂_and_left ds os).2 ⟨h, hos⟩).imp fun d o hd => ?_
    exact (ofData_eq_ok hd.1).1 hd.2
  · intro hos
    refine ((List.forall₂_and_left ds os).2 ⟨h, hos⟩).imp fun d o hd => ?_
    exact (ofData_eq_ok hd.1).2 hd.2

theorem exists_reads_iff {d : Data} (h : d.Keyed) : (∃ o, Reads d o) ↔ Fits d := by
  constructor
  · rintro ⟨o, hreads⟩
    cases hreads with
    | @table fields _ hkeys hname hchoices =>
      cases h with
      | table hnodup _ =>
        apply Fits.table hkeys hname o.name.property
        intro p f hf hkey
        rw [← Data.exists_meansChoice_iff]
        exact (hkeys.exists_gives_iff hnodup (keys_mem_groups p)).1 ⟨_, hchoices p⟩ f hf hkey
  · intro hfits
    cases hfits with
    | @table fields name hkeys hname hne hchoices =>
      cases h with
      | table hnodup _ =>
        have hgives (p : Policy) : ∃ choice, fields.Gives p.keys none Data.MeansChoice choice := by
          apply (hkeys.exists_gives_iff hnodup (keys_mem_groups p)).2
          intro f hf hkey
          exact Data.exists_meansChoice_iff.2 (hchoices p f hf hkey)
        choose choice hchoice using hgives
        refine ⟨⟨⟨name, hne⟩, .ofTest choice⟩, .table hkeys hname fun p => ?_⟩
        cases p <;> exact hchoice _

theorem mem_errors_ofData {d : Data} (h : d.Keyed) {i : Issue} :
    i ∈ (ofData d).errors ↔ Offends d i := by
  cases h with
  | @table fields hnodup _ =>
    simp only [errors_ofData, List.mem_append, List.mem_flatMap,
      (settles_checkName hnodup).mem_errors,
      TableFields.mem_errors_checkOr_settled Data.settles_toOptionalBool hnodup,
      TableFields.mem_errors_checkNoExtra hnodup]
    constructor
    · rintro ((hname | ⟨p, -, key, d, c, ht, ⟨hsome, hc⟩, rfl⟩) | ⟨key, d, hmem, hleft, rfl⟩)
      · exact .name hname
      · exact .choice ht hsome hc
      · exact .extra hmem hleft
    · intro hi
      cases hi with
      | noTable h => exact absurd rfl (h fields)
      | name hname => exact .inl (.inl hname)
      | @choice _ p _ _ _ ht hsome hc =>
        exact .inl (.inr ⟨p, p.mem_all, _, _, _, ht, ⟨hsome, hc⟩, rfl⟩)
      | extra hmem hleft => exact .inr ⟨_, _, hmem, hleft, rfl⟩
  | _ =>
    constructor
    · intro hi
      obtain rfl := List.mem_singleton.1 hi
      exact .noTable nofun
    · intro hi
      cases hi
      exact List.mem_singleton.2 rfl

theorem partErrors_checkName (hnodup : (fields.map Prod.fst).Nodup) :
    fields.PartErrors ["name"] fields.checkName.errors where
  below i hi := by
    refine ⟨"name", List.mem_singleton.2 rfl, ⟨[], ?_⟩, fun d hd => ?_⟩
    · cases (settles_checkName hnodup).mem_errors.1 hi <;> rfl
    · exact TableFields.takes_singleton.2 ⟨rfl, hd⟩
  places := (settles_checkName hnodup).nodup_places

theorem nodup_places_ofData {d : Data} (h : d.Keyed) :
    ((ofData d).errors.map Issue.place).Nodup := by
  cases h with
  | @table fields hnodup _ =>
    have hparts : (ofData (.table fields)).errors =
        ((["name"], fields.checkName.errors) ::
          Policy.all.map fun p => (p.keys, (checkChoice fields p).errors)).flatMap Prod.snd ++
            (fields.checkNoExtra groups).errors := by
      rw [errors_ofData, List.flatMap_cons, List.flatMap_map]
    rw [hparts]
    apply TableFields.nodup_places_parts hnodup
    · exact disjoint_groups
    · intro part hpart
      exact List.mem_map_of_mem (f := Prod.fst) hpart
    · intro part hpart
      rcases List.mem_cons.1 hpart with rfl | hpart
      · exact partErrors_checkName hnodup
      · obtain ⟨p, -, rfl⟩ := List.mem_map.1 hpart
        exact TableFields.partErrors_checkOr hnodup
          fun f _ => (Data.settles_toOptionalBool f.2).nodup_places
  | _ => exact List.pairwise_singleton _ _

end Override

end VendorTree
