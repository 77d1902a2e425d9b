import VendorTree.Proofs.AcceptedEntries
import VendorTree.Proofs.RepeatedNames

/-!
# Which documents are configurations

What a configuration document must be is said here without reference to a check, for the table under
`prune` and for the whole: which documents fit, what those that fit mean, and what is wrong with the
others, each fault at its place. The schema accepts the documents that fit, as what they mean, and
finds exactly the faults of the others. The repetition of a project is a fault only of a section
that has no other.
-/

namespace VendorTree

/-! ### The section -/

namespace Config

/-- The keys of the table under `prune`, for each part of it. -/
abbrev groups : List (List String) := projectKeys :: choiceKeys

/-- The value is a table that chooses policies and lists different projects. -/
inductive FitsSection : Data → Prop
  | table {fields : TableFields} (keys : fields.OnlyKeys groups)
    (choices : ∀ p : Policy, ∀ f ∈ fields, f.1 ∈ p.keys → ∃ b, f.2.MeansBool b)
    (projects : ∀ f ∈ fields, f.1 ∈ projectKeys → ∃ ds, f.2 = .list ds ∧
      (∀ d ∈ ds, Override.Fits d) ∧
        ds.Pairwise fun d e => ∀ name, d.HasName name → ¬e.HasName name) :
    FitsSection (.table fields)

/-- The value is a list that means these entries. -/
inductive MeansEntries : Data → List Override → Prop
  | list {ds : List Data} {os : List Override} (h : List.Forall₂ Override.Reads ds os) :
    MeansEntries (.list ds) os

/-- The value means this configuration. -/
inductive ReadsSection : Data → Config → Prop
  | table {fields : TableFields} {c : Config} (keys : fields.OnlyKeys groups)
    (choices : ∀ p, fields.Gives p.keys (standardPolicies.has p) Data.MeansBool (c.policies.has p))
    (projects : fields.Gives projectKeys [] MeansEntries c.overrides) :
    ReadsSection (.table fields) c

/-- What is wrong with the parts of a section. -/
inductive OffendsParts (fields : TableFields) : Issue → Prop
  | choice {p : Policy} {key : String} {d : Data} {c : Complaint} (h : fields.Takes p.keys key d)
    (hd : d.NoBool c) : OffendsParts fields ⟨[key], c, d⟩
  | noList {key : String} {d : Data} (h : fields.Takes projectKeys key d)
    (hkind : ∀ ds, d ≠ .list ds) : OffendsParts fields ⟨[key], .listType, d⟩
  | entry {key : String} {ds : List Data} {n : Nat} {d : Data} {i : Issue}
    (h : fields.Takes projectKeys key (.list ds)) (hd : ds[n]? = some d)
    (hi : Override.Offends d i) :
    OffendsParts fields ((i.below (toString n)).below key)
  | extra {key : String} {d : Data} (h : (key, d) ∈ fields) (hleft : fields.LeftOver groups key) :
    OffendsParts fields ⟨[key], .extraForbidden, d⟩

/-- What is wrong with a value as a section. Repeated projects are wrong only where nothing else
is. -/
inductive OffendsSection : Data → Issue → Prop
  | noTable {d : Data} (h : ∀ fields, d ≠ .table fields) :
    OffendsSection d ⟨[], .modelType "PruneConfig", d⟩
  | part {fields : TableFields} {i : Issue} (h : OffendsParts fields i) :
    OffendsSection (.table fields) i
  | repeated {fields : TableFields} {key : String} {ds : List Data} {names repeats : List String}
    (hparts : ∀ i, ¬OffendsParts fields i) (h : fields.Takes projectKeys key (.list ds))
    (hnames : List.Forall₂ Data.HasName ds names) (hrepeats : RepeatsOf names repeats)
    (hsome : repeats ≠ []) :
    OffendsSection (.table fields)
      ⟨[], .value ("Projects configured more than once: " ++ Text.quotedList repeats),
        .table fields⟩

theorem disjoint_groups : groups.Pairwise List.Disjoint := by
  have h : groups.flatten.Nodup := by decide
  exact (List.nodup_flatten.1 h).2

theorem keys_mem_groups (p : Policy) : p.keys ∈ groups := by cases p <;> decide

variable {fields : TableFields}

abbrev checkChoice (fields : TableFields) (p : Policy) : Checked Bool :=
  fields.checkOr p.keys (standardPolicies.has p) Data.toBool

abbrev checkEntries (fields : TableFields) : Checked (List Override) :=
  fields.checkOr projectKeys [] (Data.toListOf Override.ofData)

/-- The choice for all projects and the entries. -/
def pairOfParts (v u n t : Bool) (overrides : List Override) (_ : Unit) :
    PolicySet × List Override :=
  (⟨v, u, n, t⟩, overrides)

/-- The check of the parts of a section, before it is seen whether they fit together. -/
def checkParts (fields : TableFields) : Checked (PolicySet × List Override) :=
  Checked.choices (pure pairOfParts) (checkChoice fields) <*> checkEntries fields
    <*> fields.checkNoExtra groups

theorem ofSection_table : ofSection (.table fields) =
    (checkParts fields).andThen fun parts => ofOverrides parts.1 parts.2 (.table fields) := rfl

theorem checkParts_eq_ok {policies : PolicySet} {overrides : List Override} :
    checkParts fields = .ok (policies, overrides) ↔
      (∀ p, checkChoice fields p = .ok (policies.has p)) ∧ checkEntries fields = .ok overrides ∧
        fields.checkNoExtra groups = .ok () := by
  rw [checkParts, Checked.seq_eq_ok]
  constructor
  · rintro ⟨_, hparts, _, hextra, heq⟩
    obtain ⟨_, hchoices, _, hentries, rfl⟩ := Checked.seq_eq_ok.1 hparts
    obtain ⟨_, hstart, choice, hchoice, rfl⟩ := Checked.choices_eq_ok.1 hchoices
    obtain rfl := Except.ok.inj hstart
    obtain ⟨rfl, rfl⟩ := Prod.mk.inj heq
    refine ⟨fun p => ?_, hentries, hextra⟩
    cases p <;> exact hchoice _
  · rintro ⟨hchoice, hentries, hextra⟩
    have hstart : (pure pairOfParts : Checked _) = .ok pairOfParts := rfl
    have hchoices := Checked.choices_eq_ok.2 ⟨_, hstart, policies.has, hchoice, rfl⟩
    exact ⟨_, Checked.seq_eq_ok.2 ⟨_, hchoices, overrides, hentries, rfl⟩, (), hextra, rfl⟩

theorem errors_checkParts : (checkParts fields).errors =
    (Policy.all.flatMap fun p => (checkChoice fields p).errors) ++ (checkEntries fields).errors ++
      (fields.checkNoExtra groups).errors := by
  rw [checkParts, Checked.errors_seq, Checked.errors_seq, Checked.errors_choices]
  rfl

theorem reasoned_checkParts (fields : TableFields) : (checkParts fields).Reasoned := by
  have hchoice (p : Policy) : (checkChoice fields p).Reasoned :=
    TableFields.reasoned_checkOr fun d => (Data.settles_toBool d).reasoned
  have hentries : (checkEntries fields).Reasoned :=
    TableFields.reasoned_checkOr (Checked.reasoned_toListOf Override.reasoned_ofData)
  exact (((Checked.reasoned_ok _).choices hchoice).seq hentries).seq
    TableFields.reasoned_checkNoExtra

/-! ### Projects with two entries -/

variable {policies : PolicySet} {overrides : List Override} {found : Data}

theorem ofOverrides_distinct (h : (overrides.map Override.project).Nodup) :
    ofOverrides policies overrides found = .ok ⟨policies, overrides, h⟩ :=
  dif_pos (repeatsInOnePass_eq_nil h)

theorem ofOverrides_repeated {repeats : List String}
    (h : RepeatsOf (overrides.map Override.project) repeats) (hsome : repeats ≠ []) :
    ofOverrides policies overrides found =
      .reject (.value ("Projects configured more than once: " ++ Text.quotedList repeats))
        found := by
  obtain rfl := (repeatsInOnePass_spec _).unique h
  exact dif_neg hsome

theorem ofOverrides_cases (overrides : List Override) :
    (overrides.map Override.project).Nodup ∨
      ∃ repeats, RepeatsOf (overrides.map Override.project) repeats ∧ repeats ≠ [] := by
  have hspec := repeatsInOnePass_spec (overrides.map Override.project)
  by_cases hnone : repeatsInOnePass (overrides.map Override.project) = []
  · exact .inl (hspec.eq_nil_iff.1 hnone)
  · exact .inr ⟨_, hspec, hnone⟩

theorem ofOverrides_eq_ok {c : Config} :
    ofOverrides policies overrides found = .ok c ↔
      policies = c.policies ∧ overrides = c.overrides := by
  constructor
  · intro h
    rcases ofOverrides_cases overrides with hdistinct | ⟨repeats, hrepeats, hsome⟩
    · obtain rfl := Except.ok.inj ((ofOverrides_distinct hdistinct).symm.trans h)
      exact ⟨rfl, rfl⟩
    · exact absurd ((ofOverrides_repeated hrepeats hsome).symm.trans h) Checked.reject_ne_ok
  · rintro ⟨rfl, rfl⟩
    exact ofOverrides_distinct c.distinct

theorem mem_errors_ofOverrides {i : Issue} : i ∈ (ofOverrides policies overrides found).errors ↔
    ∃ repeats, RepeatsOf (overrides.map Override.project) repeats ∧ repeats ≠ [] ∧
      i = ⟨[], .value ("Projects configured more than once: " ++ Text.quotedList repeats),
        found⟩ := by
  rcases ofOverrides_cases overrides with hdistinct | ⟨repeats, hrepeats, hsome⟩
  · rw [ofOverrides_distinct hdistinct]
    constructor
    · exact fun h => absurd h List.not_mem_nil
    · rintro ⟨repeats, hrepeats, hsome, -⟩
      exact absurd (hrepeats.eq_nil_iff.2 hdistinct) hsome
  · rw [ofOverrides_repeated hrepeats hsome, Checked.errors_reject, List.mem_singleton]
    constructor
    · exact fun h => ⟨repeats, hrepeats, hsome, h⟩
    · rintro ⟨repeats', hrepeats', -, rfl⟩
      rw [hrepeats.unique hrepeats']

theorem reasoned_ofOverrides (policies : PolicySet) (overrides : List Override) (found : Data) :
    (ofOverrides policies overrides found).Reasoned := by
  rcases ofOverrides_cases overrides with hdistinct | ⟨repeats, hrepeats, hsome⟩
  · exact ofOverrides_distinct hdistinct ▸ Checked.reasoned_ok _
  · exact ofOverrides_repeated hrepeats hsome ▸ Checked.reasoned_reject _ _

theorem nodup_places_ofOverrides :
    ((ofOverrides policies overrides found).errors.map Issue.place).Nodup := by
  rcases ofOverrides_cases overrides with hdistinct | ⟨repeats, hrepeats, hsome⟩
  · exact ofOverrides_distinct hdistinct ▸ List.nodup_nil
  · rw [ofOverrides_repeated hrepeats hsome]
    exact List.pairwise_singleton _ _

/-! ### Names of entries -/

theorem forall₂_hasName {ds : List Data} {os : List Override}
    (h : List.Forall₂ Override.Reads ds os) :
    List.Forall₂ Data.HasName ds (os.map Override.project) := by
  apply List.forall₂_map_right_iff.2
  refine h.imp fun d o hreads => ?_
  cases hreads with
  | table _ hname _ => exact .table hname

theorem mem_names_iff {ds : List Data} {names : List String} (hkeyed : ∀ d ∈ ds, d.Keyed)
    (h : List.Forall₂ Data.HasName ds names) {name : String} :
    name ∈ names ↔ ∃ d ∈ ds, d.HasName name := by
  induction h with
  | nil => simp
  | @cons d name' ds names hname _ ih =>
    obtain ⟨hd, hds⟩ := List.forall_mem_cons.1 hkeyed
    have hhead : name = name' ↔ d.HasName name := by
      constructor
      · rintro rfl
        exact hname
      · exact fun hname' => hname'.unique hd hname
    rw [List.mem_cons, List.exists_mem_cons_iff, ih hds, hhead]

/-- The names are distinct if no two values have a name in common. -/
theorem nodup_names_iff {ds : List Data} {names : List String} (hkeyed : ∀ d ∈ ds, d.Keyed)
    (h : List.Forall₂ Data.HasName ds names) :
    names.Nodup ↔ ds.Pairwise fun d e => ∀ name, d.HasName name → ¬e.HasName name := by
  induction h with
  | nil => simp
  | @cons d name ds names hname hnames ih =>
    obtain ⟨hd, hds⟩ := List.forall_mem_cons.1 hkeyed
    rw [List.nodup_cons, List.pairwise_cons, ih hds, mem_names_iff hds hnames]
    apply and_congr_left
    intro _
    constructor
    · intro hnew e he name' hname' hname''
      obtain rfl := hname.unique hd hname'
      exact hnew ⟨e, he, hname''⟩
    · rintro hapart ⟨e, he, hname'⟩
      exact hapart e he name hname hname'

theorem names_unique {ds : List Data} {names names' : List String} (hkeyed : ∀ d ∈ ds, d.Keyed)
    (h : List.Forall₂ Data.HasName ds names) (h' : List.Forall₂ Data.HasName ds names') :
    names = names' := by
  induction h generalizing names' with
  | nil => exact (List.forall₂_nil_left_iff.1 h').symm
  | cons hname _ ih =>
    obtain ⟨hd, hds⟩ := List.forall_mem_cons.1 hkeyed
    obtain ⟨name', names', hname', hnames', rfl⟩ := List.forall₂_cons_left_iff.1 h'
    rw [hname.unique hd hname', ih hds hnames']

/-! ### Sections -/

theorem toListOf_eq_ok {d : Data} (h : d.Keyed) {os : List Override} :
    d.toListOf Override.ofData = .ok os ↔ MeansEntries d os := by
  rw [Checked.toListOf_eq_ok]
  constructor
  · rintro ⟨ds, rfl, hos⟩
    exact .list ((Override.forall₂_ofData_iff (Data.keyed_list_iff.1 h)).1 hos)
  · intro hmeans
    cases hmeans with
    | @list ds _ hos =>
      exact ⟨ds, rfl, (Override.forall₂_ofData_iff (Data.keyed_list_iff.1 h)).2 hos⟩

theorem checkEntries_eq_ok (h : (Data.table fields).Keyed) :
    checkEntries fields = .ok overrides ↔ fields.Gives projectKeys [] MeansEntries overrides := by
  obtain ⟨hnodup, hfields⟩ := Data.keyed_table_iff.1 h
  rw [checkEntries, TableFields.checkOr_eq_ok hnodup]
  exact TableFields.gives_congr fun f hf _ => toListOf_eq_ok (hfields f hf)

theorem ofSection_eq_ok {d : Data} (h : d.Keyed) {c : Config} :
    ofSection d = .ok c ↔ ReadsSection d c := by
  cases h with
  | @table fields hnodup hfields =>
    have hchoice (p : Policy) : checkChoice fields p = .ok (c.policies.has p) ↔
        fields.Gives p.keys (standardPolicies.has p) Data.MeansBool (c.policies.has p) :=
      TableFields.checkOr_settled_eq_ok Data.settles_toBool hnodup
    have hentries := @checkEntries_eq_ok _ c.overrides (.table hnodup hfields)
    rw [ofSection_table, Checked.andThen_eq_ok]
    constructor
    · rintro ⟨⟨policies, overrides⟩, hparts, hconfig⟩
      obtain ⟨rfl, rfl⟩ := ofOverrides_eq_ok.1 hconfig
      obtain ⟨hchoices, hos, hextra⟩ := checkParts_eq_ok.1 hparts
      exact .table ((TableFields.checkNoExtra_eq_ok hnodup disjoint_groups).1 hextra)
        (fun p => (hchoice p).1 (hchoices p)) (hentries.1 hos)
    · intro hreads
      cases hreads with
      | table hkeys hchoices hos =>
        refine ⟨(c.policies, c.overrides), checkParts_eq_ok.2 ⟨?_, hentries.2 hos, ?_⟩, ?_⟩
        · exact fun p => (hchoice p).2 (hchoices p)
        · exact (TableFields.checkNoExtra_eq_ok hnodup disjoint_groups).2 hkeys
        · exact ofOverrides_eq_ok.2 ⟨rfl, rfl⟩
  | _ =>
    constructor
    · exact fun hc => absurd hc Checked.reject_ne_ok
    · exact fun hreads => nomatch hreads

theorem exists_forall₂_reads_iff {ds : List Data} (hkeyed : ∀ d ∈ ds, d.Keyed) :
    (∃ os, List.Forall₂ Override.Reads ds os) ↔ ∀ d ∈ ds, Override.Fits d := by
  induction ds with
  | nil => exact ⟨fun _ => nofun, fun _ => ⟨[], .nil⟩⟩
  | cons d ds ih =>
    obtain ⟨hd, hds⟩ := List.forall_mem_cons.1 hkeyed
    rw [List.forall_mem_cons, ← ih hds, ← Override.exists_reads_iff hd]
    constructor
    · rintro ⟨_, hreads⟩
      cases hreads with
      | cons ho hos => exact ⟨⟨_, ho⟩, _, hos⟩
    · rintro ⟨⟨o, ho⟩, os, hos⟩
      exact ⟨o :: os, .cons ho hos⟩

/-- A value means entries of different projects if it is a list of values that fit as entries and
have no name in common. -/
theorem exists_meansEntries_iff {d : Data} (h : d.Keyed) :
    (∃ os, MeansEntries d os ∧ (os.map Override.project).Nodup) ↔
      ∃ ds, d = .list ds ∧ (∀ d ∈ ds, Override.Fits d) ∧
        ds.Pairwise fun d e => ∀ name, d.HasName name → ¬e.HasName name := by
  constructor
  · rintro ⟨os, hmeans, hdistinct⟩
    cases hmeans with
    | @list ds _ hos =>
      have hkeyed := Data.keyed_list_iff.1 h
      refine ⟨ds, rfl, (exists_forall₂_reads_iff hkeyed).1 ⟨os, hos⟩, ?_⟩
      exact (nodup_names_iff hkeyed (forall₂_hasName hos)).1 hdistinct
  · rintro ⟨ds, rfl, hfits, hapart⟩
    have hkeyed := Data.keyed_list_iff.1 h
    obtain ⟨os, hos⟩ := (exists_forall₂_reads_iff hkeyed).2 hfits
    exact ⟨os, .list hos, (nodup_names_iff hkeyed (forall₂_hasName hos)).2 hapart⟩

/-- The names are distinct where the entries are taken from a list, and where there are none. -/
theorem gives_distinct_iff {fields : TableFields} {os : List Override} :
    fields.Gives projectKeys [] MeansEntries os ∧ (os.map Override.project).Nodup ↔
      fields.Gives projectKeys []
        (fun d os => MeansEntries d os ∧ (os.map Override.project).Nodup) os := by
  constructor
  · rintro ⟨⟨key, d, ht, hmeans⟩ | hnone, hdistinct⟩
    · exact .inl ⟨key, d, ht, hmeans, hdistinct⟩
    · exact .inr hnone
  · rintro (⟨key, d, ht, hmeans, hdistinct⟩ | ⟨hnone, rfl⟩)
    · exact ⟨.inl ⟨key, d, ht, hmeans⟩, hdistinct⟩
    · exact ⟨.inr ⟨hnone, rfl⟩, List.nodup_nil⟩

theorem exists_readsSection_iff {d : Data} (h : d.Keyed) :
    (∃ c, ReadsSection d c) ↔ FitsSection d := by
  have hprojects : projectKeys ∈ groups := List.mem_cons_self
  constructor
  · rintro ⟨c, hreads⟩
    cases hreads with
    | @table fields _ hkeys hchoices hos =>
      cases h with
      | table hnodup hfields =>
        apply FitsSection.table hkeys
        · intro p f hf hkey
          exact (hkeys.exists_gives_iff hnodup (keys_mem_groups p)).1 ⟨_, hchoices p⟩ f hf hkey
        · intro f hf hkey
          apply (exists_meansEntries_iff (hfields f hf)).1
          exact (hkeys.exists_gives_iff hnodup hprojects).1
            ⟨_, gives_distinct_iff.1 ⟨hos, c.distinct⟩⟩ f hf hkey
  · intro hfits
    cases hfits with
    | @table fields hkeys hchoices hlist =>
      cases h with
      | table hnodup hfields =>
        have hgives (p : Policy) :
            ∃ b, fields.Gives p.keys (standardPolicies.has p) Data.MeansBool b :=
          (hkeys.exists_gives_iff hnodup (keys_mem_groups p)).2 (hchoices p)
        obtain ⟨os, hos⟩ : ∃ os, fields.Gives projectKeys []
            (fun d os => MeansEntries d os ∧ (os.map Override.project).Nodup) os := by
          apply (hkeys.exists_gives_iff hnodup hprojects).2
          intro f hf hkey
          exact (exists_meansEntries_iff (hfields f hf)).2 (hlist f hf hkey)
        obtain ⟨hmeans, hdistinct⟩ := gives_distinct_iff.2 hos
        choose choice hchoice using hgives
        refine ⟨⟨.ofTest choice, os, hdistinct⟩, .table hkeys (fun p => ?_) hmeans⟩
        rw [PolicySet.has_ofTest]
        exact hchoice p

/-! ### Faults of sections -/

theorem keyed_items (h : (Data.table fields).Keyed) {key : String} {ds : List Data}
    (ht : fields.Takes projectKeys key (.list ds)) : ∀ d ∈ ds, d.Keyed :=
  Data.keyed_list_iff.1 ((Data.keyed_table_iff.1 h).2 _ ht.mem)

theorem mem_errors_checkEntries (h : (Data.table fields).Keyed) {i : Issue} :
    i ∈ (checkEntries fields).errors ↔
      (∃ key d, fields.Takes projectKeys key d ∧ (∀ ds, d ≠ .list ds) ∧ i = ⟨[key], .listType, d⟩) ∨
      ∃ (key : String) (ds : List Data) (n : Nat) (d : Data) (j : Issue),
        fields.Takes projectKeys key (.list ds) ∧ ds[n]? = some d ∧ Override.Offends d j ∧
          i = (j.below (toString n)).below key := by
  have hnodup := (Data.keyed_table_iff.1 h).1
  rw [TableFields.mem_errors_checkOr hnodup]
  simp only [Checked.mem_errors_toListOf]
  constructor
  · rintro ⟨key, d, j, ht, ⟨ds, n, d', j', rfl, hd', hj', rfl⟩ | ⟨hkind, rfl⟩, rfl⟩
    · have hkeyed := keyed_items h ht d' (List.mem_of_getElem? hd')
      exact .inr ⟨key, ds, n, d', j', ht, hd', (Override.mem_errors_ofData hkeyed).1 hj', rfl⟩
    · exact .inl ⟨key, d, ht, hkind, rfl⟩
  · rintro (⟨key, d, ht, hkind, rfl⟩ | ⟨key, ds, n, d, j, ht, hd, hj, rfl⟩)
    · exact ⟨key, d, _, ht, .inr ⟨hkind, rfl⟩, rfl⟩
    · have hkeyed := keyed_items h ht d (List.mem_of_getElem? hd)
      exact ⟨key, .list ds, _, ht,
        .inl ⟨ds, n, d, j, rfl, hd, (Override.mem_errors_ofData hkeyed).2 hj, rfl⟩, rfl⟩

/-- The errors in the parts of a section are exactly what is wrong with them. -/
theorem mem_errors_checkParts (h : (Data.table fields).Keyed) {i : Issue} :
    i ∈ (checkParts fields).errors ↔ OffendsParts fields i := by
  have hnodup := (Data.keyed_table_iff.1 h).1
  simp only [errors_checkParts, List.mem_append, List.mem_flatMap,
    TableFields.mem_errors_checkOr_settled Data.settles_toBool hnodup, mem_errors_checkEntries h,
    TableFields.mem_errors_checkNoExtra hnodup]
  constructor
  · rintro ((⟨p, -, key, d, c, ht, hc, rfl⟩ | ⟨key, d, ht, hkind, rfl⟩ |
      ⟨key, ds, n, d, j, ht, hd, hj, rfl⟩) | ⟨key, d, hmem, hleft, rfl⟩)
    · exact .choice ht hc
    · exact .noList ht hkind
    · exact .entry ht hd hj
    · exact .extra hmem hleft
  · intro hi
    cases hi with
    | @choice p _ _ _ ht hc => exact .inl (.inl ⟨p, p.mem_all, _, _, _, ht, hc, rfl⟩)
    | noList ht hkind => exact .inl (.inr (.inl ⟨_, _, ht, hkind, rfl⟩))
    | entry ht hd hj => exact .inl (.inr (.inr ⟨_, _, _, _, _, ht, hd, hj, rfl⟩))
    | extra hmem hleft => exact .inr ⟨_, _, hmem, hleft, rfl⟩

theorem mem_errors_ofSection {d : Data} (h : d.Keyed) {i : Issue} :
    i ∈ (ofSection d).errors ↔ OffendsSection d i := by
  cases h with
  | @table fields hnodup hfields =>
    have hkeyed : (Data.table fields).Keyed := .table hnodup hfields
    rw [ofSection_table, Checked.mem_errors_andThen, mem_errors_checkParts hkeyed]
    constructor
    · rintro (hpart | ⟨⟨policies, overrides⟩, hok, hi⟩)
      · exact .part hpart
      · obtain ⟨repeats, hrepeats, hsome, rfl⟩ := mem_errors_ofOverrides.1 hi
        -- repeated names are looked for only where the parts are fine
        have hparts (j : Issue) (hj : OffendsParts fields j) : False := by
          have hmem := (mem_errors_checkParts hkeyed).2 hj
          rw [hok] at hmem
          cases hmem
        obtain ⟨-, hentries, -⟩ := checkParts_eq_ok.1 hok
        rcases (checkEntries_eq_ok hkeyed).1 hentries with ⟨key, d, ht, hmeans⟩ | ⟨-, rfl⟩
        · cases hmeans with
          | list hos => exact .repeated hparts ht (forall₂_hasName hos) hrepeats hsome
        · exact absurd (hrepeats.eq_nil_iff.2 List.nodup_nil) hsome
    · intro hi
      cases hi with
      | noTable h => exact absurd rfl (h fields)
      | part hpart => exact .inl hpart
      | @repeated _ key ds names repeats hparts ht hnames hrepeats hsome =>
        have hnone : (checkParts fields).errors = [] :=
          List.eq_nil_iff_forall_not_mem.2 fun j hj =>
            hparts j ((mem_errors_checkParts hkeyed).1 hj)
        obtain ⟨⟨policies, overrides⟩, hok⟩ := reasoned_checkParts fields hnone
        obtain ⟨-, hentries, -⟩ := checkParts_eq_ok.1 hok
        rcases (checkEntries_eq_ok hkeyed).1 hentries with ⟨key', d, ht', hmeans⟩ | ⟨hnokey, -⟩
        · obtain ⟨-, rfl⟩ := ht.unique hnodup ht'
          cases hmeans with
          | list hos =>
            obtain rfl := names_unique (keyed_items hkeyed ht) hnames (forall₂_hasName hos)
            exact .inr ⟨_, hok, mem_errors_ofOverrides.2 ⟨repeats, hrepeats, hsome, rfl⟩⟩
        · exact absurd ht.mem_keys (hnokey _ ht.mem)
  | _ =>
    constructor
    · intro hi
      obtain rfl := List.mem_singleton.1 hi
      exact .noTable nofun
    · intro hi
      cases hi
      exact List.mem_singleton.2 rfl

theorem nodup_places_checkParts (h : (Data.table fields).Keyed) :
    ((checkParts fields).errors.map Issue.place).Nodup := by
  cases h with
  | table hnodup hfields =>
    have hparts : (checkParts fields).errors =
        ((Policy.all.map fun p => (p.keys, (checkChoice fields p).errors)) ++
          [(projectKeys, (checkEntries fields).errors)]).flatMap Prod.snd ++
            (fields.checkNoExtra groups).errors := by
      rw [errors_checkParts, List.flatMap_append, List.flatMap_map, List.flatMap_singleton]
    rw [hparts]
    apply TableFields.nodup_places_parts hnodup
    · have hkeys : (choiceKeys ++ [projectKeys]).flatten.Nodup := by decide
      exact (List.nodup_flatten.1 hkeys).2
    · intro part hpart
      rcases List.mem_append.1 hpart with hpart | hpart
      · obtain ⟨p, -, rfl⟩ := List.mem_map.1 hpart
        exact keys_mem_groups p
      · obtain rfl := List.mem_singleton.1 hpart
        exact List.mem_cons_self
    · intro part hpart
      rcases List.mem_append.1 hpart with hpart | hpart
      · obtain ⟨p, -, rfl⟩ := List.mem_map.1 hpart
        exact TableFields.partErrors_checkOr hnodup fun f _ =>
          (Data.settles_toBool f.2).nodup_places
      · obtain rfl := List.mem_singleton.1 hpart
        apply TableFields.partErrors_checkOr hnodup
        intro f hf
        apply Checked.nodup_places_toListOf
        intro ds heq d hd
        exact Override.nodup_places_ofData (Data.keyed_list_iff.1 (heq ▸ hfields f hf) d hd)

theorem nodup_places_ofSection {d : Data} (h : d.Keyed) :
    ((ofSection d).errors.map Issue.place).Nodup := by
  cases d with
  | table fields =>
    exact Checked.nodup_places_andThen (nodup_places_checkParts h) fun _ => nodup_places_ofOverrides
  | _ => exact List.pairwise_singleton _ _

theorem reasoned_ofSection (d : Data) : (ofSection d).Reasoned := by
  cases d with
  | table fields =>
    exact (reasoned_checkParts fields).andThen fun _ => reasoned_ofOverrides _ _ _
  | _ => exact Checked.reasoned_reject _ _

/-! ### Documents -/

/-- The value is a configuration document. -/
inductive Fits : Data → Prop
  | table {fields : TableFields} (keys : ∀ f ∈ fields, f.1 = "prune")
    (prune : ∀ f ∈ fields, f.1 = "prune" → FitsSection f.2) : Fits (.table fields)

/-- The value means this configuration. -/
inductive Reads : Data → Config → Prop
  | table {fields : TableFields} {c : Config} (keys : ∀ f ∈ fields, f.1 = "prune")
    (prune : fields.Gives ["prune"] standard ReadsSection c) : Reads (.table fields) c

/-- What is wrong with a value as a configuration document. -/
inductive Offends : Data → Issue → Prop
  | noTable {d : Data} (h : ∀ fields, d ≠ .table fields) : Offends d ⟨[], .modelType "Config", d⟩
  | prune {fields : TableFields} {d : Data} {i : Issue} (h : ("prune", d) ∈ fields)
    (hi : OffendsSection d i) : Offends (.table fields) (i.below "prune")
  | extra {fields : TableFields} {key : String} {d : Data} (h : (key, d) ∈ fields)
    (hkey : key ≠ "prune") : Offends (.table fields) ⟨[key], .extraForbidden, d⟩

theorem disjoint_pruneKeys : [["prune"]].Pairwise List.Disjoint := List.pairwise_singleton _ _

theorem ofData_eq_ok {data : Data} (h : data.Keyed) {c : Config} :
    ofData data = .ok c ↔ Reads data c := by
  cases h with
  | @table fields hnodup hfields =>
    have hsection : fields.checkOr ["prune"] standard ofSection = .ok c ↔
        fields.Gives ["prune"] standard ReadsSection c := by
      rw [TableFields.checkOr_eq_ok hnodup]
      exact TableFields.gives_congr fun f hf _ => ofSection_eq_ok (hfields f hf)
    have hextra := TableFields.checkNoExtra_eq_ok hnodup disjoint_pruneKeys
    rw [TableFields.onlyKeys_singleton hnodup] at hextra
    rw [ofData, Checked.seq_eq_ok]
    constructor
    · rintro ⟨_, hconfig, _, hnone, heq⟩
      obtain ⟨c', hc', rfl⟩ := Checked.map_eq_ok.1 hconfig
      obtain rfl : c' = c := heq
      exact .table (hextra.1 hnone) (hsection.1 hc')
    · intro hreads
      cases hreads with
      | table hkeys hprune =>
        exact ⟨_, Checked.map_eq_ok.2 ⟨c, hsection.2 hprune, rfl⟩, (), hextra.2 hkeys, rfl⟩
  | _ =>
    constructor
    · exact fun hc => absurd hc Checked.reject_ne_ok
    · exact fun hreads => nomatch hreads

theorem exists_reads_iff {data : Data} (h : data.Keyed) : (∃ c, Reads data c) ↔ Fits data := by
  have hprune : ["prune"] ∈ [["prune"]] := List.mem_singleton.2 rfl
  constructor
  · rintro ⟨c, hreads⟩
    cases hreads with
    | @table fields _ hkeys hsection =>
      cases h with
      | table hnodup hfields =>
        apply Fits.table hkeys
        intro f hf hkey
        rw [← exists_readsSection_iff (hfields f hf)]
        exact (((TableFields.onlyKeys_singleton hnodup).2 hkeys).exists_gives_iff hnodup hprune).1
          ⟨c, hsection⟩ f hf (List.mem_singleton.2 hkey)
  · intro hfits
    cases hfits with
    | @table fields hkeys hsection =>
      cases h with
      | table hnodup hfields =>
        obtain ⟨c, hc⟩ : ∃ c, fields.Gives ["prune"] standard ReadsSection c := by
          apply (((TableFields.onlyKeys_singleton hnodup).2 hkeys).exists_gives_iff hnodup hprune).2
          intro f hf hkey
          exact (exists_readsSection_iff (hfields f hf)).2
            (hsection f hf (List.mem_singleton.1 hkey))
        exact ⟨c, .table hkeys hc⟩

theorem errors_ofData : (ofData (.table fields)).errors =
    (fields.checkOr ["prune"] standard ofSection).errors ++
      (fields.checkNoExtra [["prune"]]).errors := by
  rw [ofData, Checked.errors_seq, Checked.errors_map]

theorem reasoned_ofData (data : Data) : (ofData data).Reasoned := by
  cases data with
  | table fields =>
    exact ((TableFields.reasoned_checkOr reasoned_ofSection).map _).seq
      TableFields.reasoned_checkNoExtra
  | _ => exact Checked.reasoned_reject _ _

/-- The errors in a value are exactly what is wrong with it as a configuration document. -/
theorem mem_errors_ofData {data : Data} (h : data.Keyed) {i : Issue} :
    i ∈ (ofData data).errors ↔ Offends data i := by
  cases h with
  | @table fields hnodup hfields =>
    rw [errors_ofData, List.mem_append, TableFields.mem_errors_checkOr hnodup,
      TableFields.mem_errors_checkNoExtra hnodup]
    constructor
    · rintro (⟨key, d, j, ht, hj, rfl⟩ | ⟨key, d, hmem, hleft, rfl⟩)
      · obtain ⟨rfl, hmem⟩ := TableFields.takes_singleton.1 ht
        exact .prune hmem ((mem_errors_ofSection (hfields _ hmem)).1 hj)
      · exact .extra hmem ((TableFields.leftOver_singleton hmem).1 hleft)
    · intro hi
      cases hi with
      | noTable h => exact absurd rfl (h fields)
      | prune hmem hj =>
        have hj' := (mem_errors_ofSection (hfields _ hmem)).2 hj
        exact .inl ⟨_, _, _, TableFields.takes_singleton.2 ⟨rfl, hmem⟩, hj', rfl⟩
      | extra hmem hkey =>
        exact .inr ⟨_, _, hmem, (TableFields.leftOver_singleton hmem).2 hkey, rfl⟩
  | _ =>
    constructor
    · intro hi
      obtain rfl := List.mem_singleton.1 hi
      exact .noTable nofun
    · intro hi
      cases hi
      exact List.mem_singleton.2 rfl

theorem nodup_places_ofData {data : Data} (h : data.Keyed) :
    ((ofData data).errors.map Issue.place).Nodup := by
  cases h with
  | @table fields hnodup hfields =>
    have hparts : (ofData (.table fields)).errors =
        [(["prune"], (fields.checkOr ["prune"] standard ofSection).errors)].flatMap Prod.snd ++
          (fields.checkNoExtra [["prune"]]).errors := by
      rw [errors_ofData, List.flatMap_singleton]
    rw [hparts]
    apply TableFields.nodup_places_parts hnodup
    · exact disjoint_pruneKeys
    · intro part hpart
      obtain rfl := List.mem_singleton.1 hpart
      exact List.mem_singleton.2 rfl
    · intro part hpart
      obtain rfl := List.mem_singleton.1 hpart
      exact TableFields.partErrors_checkOr hnodup fun f hf => nodup_places_ofSection (hfields f hf)
  | _ => exact List.pairwise_singleton _ _

/-! ### Repeated projects -/

theorem OffendsParts.complaint_ne_value {i : Issue} (h : OffendsParts fields i) (reason : String) :
    i.complaint ≠ .value reason := by
  cases h with
  | choice _ hd => exact hd.ne_value reason
  | noList => exact nofun
  | entry _ _ hi => exact hi.complaint_ne_value reason
  | extra => exact nofun

/-- The repetition of projects is the only fault of its section. -/
theorem OffendsSection.eq_of_repeated {d : Data} (h : d.Keyed) {i j : Issue} {reason : String}
    (hi : OffendsSection d i) (hreason : i.complaint = .value reason) (hj : OffendsSection d j) :
    j = i := by
  have hplaces : i.place = [] ∧ j.place = [] := by
    cases hi with
    | noTable => exact nomatch hreason
    | part hpart => exact absurd hreason (hpart.complaint_ne_value reason)
    | repeated hparts =>
      cases hj with
      | noTable hkind => exact absurd rfl (hkind _)
      | part hpart => exact absurd hpart (hparts j)
      | repeated => exact ⟨rfl, rfl⟩
  have hi' := (mem_errors_ofSection h).2 hi
  have hj' := (mem_errors_ofSection h).2 hj
  exact List.inj_on_of_nodup_map (nodup_places_ofSection h) hj' hi' (hplaces.2.trans hplaces.1.symm)

theorem Offends.eq_of_repeated {data : Data} (h : data.Keyed) {i j : Issue} {reason : String}
    (hi : Offends data i) (hreason : i.complaint = .value reason) (hj : Offends data j)
    (hplace : j.place.head? = some "prune") : j = i := by
  cases hi with
  | noTable => exact nomatch hreason
  | extra => exact nomatch hreason
  | prune hmem hi =>
    cases h with
    | table hnodup hfields =>
      cases hj with
      | noTable hkind => exact absurd rfl (hkind _)
      | extra _ hkey => exact absurd (Option.some.inj hplace) hkey
      | prune hmem' hj =>
        obtain rfl := TableFields.value_unique hnodup hmem' hmem
        rw [hi.eq_of_repeated (hfields _ hmem) hreason hj]

/-- A document is accepted if and only if it fits, and as the configuration that it means. Otherwise
exactly its faults are found, each once and at its own place; that a project is repeated is found
only where nothing else is wrong in the section. -/
theorem ofData_exact {data : Data} (h : data.Keyed) :
    ((∃ c, ofData data = .ok c) ↔ Fits data) ∧ (∀ c, ofData data = .ok c ↔ Reads data c) ∧
      ∀ es, ofData data = .error es →
        es ≠ [] ∧ (∀ i, i ∈ es ↔ Offends data i) ∧ (es.map Issue.place).Nodup ∧
          ∀ i ∈ es, ∀ reason, i.complaint = .value reason →
            ∀ j ∈ es, j.place.head? = some "prune" → j = i := by
  refine ⟨?_, fun c => ofData_eq_ok h, fun es hes => ?_⟩
  · rw [← exists_reads_iff h]
    exact exists_congr fun c => ofData_eq_ok h
  · have herrors : (ofData data).errors = es := by rw [hes]; rfl
    have hmem (i : Issue) : i ∈ es ↔ Offends data i := by rw [← herrors, mem_errors_ofData h]
    refine ⟨?_, hmem, herrors ▸ nodup_places_ofData h, ?_⟩
    · rintro rfl
      obtain ⟨c, hc⟩ := reasoned_ofData data herrors
      exact nomatch hc.symm.trans hes
    · intro i hi reason hreason j hj hplace
      exact ((hmem i).1 hi).eq_of_repeated h hreason ((hmem j).1 hj) hplace

/-- A section with a choice for all projects and an entry that chooses nothing. -/
def acceptedSection : Data :=
  .table [("go_tests", .int 1),
    ("projects", .list [.table [("name", .text "a"), ("non-go", .null)]])]

/-- A document that chooses one policy twice, lists a project without a name, and has a key of no
meaning. -/
def faultyDocument : Data :=
  .table [("prune", .table [("non-go", .int 2), ("non_go", .bool true),
    ("project", .list [.table [("go-tests", .null)]])]), ("other", .null)]

theorem ofData_exact_documents :
    (faultyDocument.Keyed ∧ (Data.table [("prune", acceptedSection)]).Keyed) ∧
      Fits (.table [("prune", acceptedSection)]) ∧ ¬Fits faultyDocument ∧
      ∃ es, ofData faultyDocument = .error es ∧ (∀ i, i ∈ es ↔ Offends faultyDocument i) ∧
        es.map (fun i => (i.place, i.complaint.label)) =
          [(["prune", "non-go"], "bool_parsing"), (["prune", "project", "0", "name"], "missing"),
            (["prune", "non_go"], "extra_forbidden"), (["other"], "extra_forbidden")] := by
  have haccepted : (Data.table [("prune", acceptedSection)]).Keyed := by
    simp [acceptedSection, Data.keyed_table_iff, Data.keyed_list_iff,
      Data.Keyed.text, Data.Keyed.int, Data.Keyed.null]
  have hfaulty : faultyDocument.Keyed := by
    simp [faultyDocument, Data.keyed_table_iff, Data.keyed_list_iff,
      Data.Keyed.int, Data.Keyed.bool, Data.Keyed.null]
  have hok : ∃ c, ofData (.table [("prune", acceptedSection)]) = .ok c := by
    have hdistinct :
        ([⟨⟨"a", by decide⟩, ⟨none, none, none, none⟩⟩].map Override.project).Nodup := by
      decide
    have hsection : ofSection acceptedSection = .ok _ :=
      @ofOverrides_distinct ⟨true, false, false, true⟩ _ acceptedSection hdistinct
    exact ⟨_, congrArg (fun x => (fun c (_ : Unit) => c) <$> Checked.under "prune" x <*> .ok ())
      hsection⟩
  obtain ⟨es, hes, hplaces⟩ : ∃ es, ofData faultyDocument = .error es ∧
      es.map (fun i => (i.place, i.complaint.label)) =
        [(["prune", "non-go"], "bool_parsing"), (["prune", "project", "0", "name"], "missing"),
          (["prune", "non_go"], "extra_forbidden"), (["other"], "extra_forbidden")] :=
    ⟨_, rfl, rfl⟩
  obtain ⟨hfits, -, herrors⟩ := ofData_exact hfaulty
  refine ⟨⟨hfaulty, haccepted⟩, (ofData_exact haccepted).1.1 hok, ?_, es, hes, ?_, hplaces⟩
  · rw [← hfits]
    rintro ⟨c, hc⟩
    exact nomatch hc.symm.trans hes
  · exact (herrors es hes).2.1

end Config

end VendorTree
