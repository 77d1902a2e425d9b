import Mathlib.Data.List.Forall2
import Mathlib.Data.List.Nodup
import Mathlib.Data.List.Pairwise
import VendorTree.Schema

/-!
# Checks part by part

A check is judged by two things: the value that it accepts, and the errors that it finds. For a
check that is put together from parts, both are those of the parts. The errors in a table are told
apart by the first key on the way to their places, since no two parts share a key.
-/

namespace VendorTree

/-- An issue of a part, seen from the whole that holds the part under `key`. -/
def Issue.below (key : String) (i : Issue) : Issue := { i with place := key :: i.place }

/-- The issue is about the value itself, for one of these reasons. -/
def Issue.OfValue (d : Data) (wrong : Complaint → Prop) (i : Issue) : Prop :=
  ∃ c, wrong c ∧ i = ⟨[], c, d⟩

namespace Checked

variable {α β : Type}

/-- What a check finds wrong. -/
def errors : Checked α → List Issue
  | .ok _ => []
  | .error es => es

/-- A check that does not accept a value has found errors. -/
def Reasoned (x : Checked α) : Prop := x.errors = [] → ∃ a, x = .ok a

/-! ### Parts side by side -/

variable {f : Checked (α → β)} {x : Checked α}

@[simp] theorem errors_map (g : α → β) (x : Checked α) : (g <$> x).errors = x.errors := by
  cases x <;> rfl

@[simp] theorem errors_seq (f : Checked (α → β)) (x : Checked α) :
    (f <*> x).errors = f.errors ++ x.errors := by
  cases f <;> cases x <;> simp [errors, Seq.seq]

theorem map_eq_ok {g : α → β} {b : β} : g <$> x = .ok b ↔ ∃ a, x = .ok a ∧ g a = b := by
  constructor
  · intro h
    cases x with
    | ok a => exact ⟨a, rfl, Except.ok.inj h⟩
    | error es => cases h
  · rintro ⟨a, rfl, rfl⟩
    rfl

theorem seq_eq_ok {b : β} : f <*> x = .ok b ↔ ∃ g, f = .ok g ∧ ∃ a, x = .ok a ∧ g a = b := by
  constructor
  · intro h
    cases f with
    | error es => cases x <;> cases h
    | ok g =>
      cases x with
      | ok a => exact ⟨g, rfl, a, rfl, Except.ok.inj h⟩
      | error es => cases h
  · rintro ⟨g, rfl, a, rfl, rfl⟩
    rfl

theorem Reasoned.map (h : x.Reasoned) (g : α → β) : (g <$> x).Reasoned := by
  intro hnone
  obtain ⟨a, rfl⟩ := h (by rwa [errors_map] at hnone)
  exact ⟨g a, rfl⟩

theorem Reasoned.seq (hf : f.Reasoned) (hx : x.Reasoned) : (f <*> x).Reasoned := by
  intro hnone
  rw [errors_seq, List.append_eq_nil_iff] at hnone
  obtain ⟨g, rfl⟩ := hf hnone.1
  obtain ⟨a, rfl⟩ := hx hnone.2
  exact ⟨g a, rfl⟩

/-! ### Rejections, parts below a key and further checks -/

@[simp] theorem errors_reject (c : Complaint) (d : Data) :
    (reject c d : Checked α).errors = [⟨[], c, d⟩] := rfl

theorem reject_ne_ok {c : Complaint} {d : Data} {a : α} : (reject c d : Checked α) ≠ .ok a := nofun

theorem reasoned_reject (c : Complaint) (d : Data) : (reject c d : Checked α).Reasoned := nofun

theorem reasoned_ok (a : α) : Reasoned (.ok a : Checked α) := fun _ => ⟨a, rfl⟩

@[simp] theorem errors_under (key : String) (x : Checked α) :
    (under key x).errors = x.errors.map (Issue.below key) := by
  cases x <;> rfl

theorem under_eq_ok {key : String} {a : α} : under key x = .ok a ↔ x = .ok a := by
  cases x with
  | ok b => exact Iff.rfl
  | error es => exact ⟨nofun, nofun⟩

theorem Reasoned.under (h : x.Reasoned) (key : String) : (under key x).Reasoned := by
  intro hnone
  obtain ⟨a, rfl⟩ := h (by simpa using hnone)
  exact ⟨a, rfl⟩

variable {g : α → Checked β}

theorem andThen_eq_ok {b : β} : x.andThen g = .ok b ↔ ∃ a, x = .ok a ∧ g a = .ok b := by
  cases x with
  | ok a =>
    constructor
    · exact fun h => ⟨a, rfl, h⟩
    · rintro ⟨a', ha, h⟩
      exact Except.ok.inj ha ▸ h
  | error es => exact ⟨nofun, nofun⟩

/-- The further check says something only of parts that are accepted. -/
theorem mem_errors_andThen {i : Issue} :
    i ∈ (x.andThen g).errors ↔ i ∈ x.errors ∨ ∃ a, x = .ok a ∧ i ∈ (g a).errors := by
  cases x with
  | ok a =>
    constructor
    · exact fun h => .inr ⟨a, rfl, h⟩
    · rintro (h | ⟨a', ha, h⟩)
      · cases h
      · exact Except.ok.inj ha ▸ h
  | error es => exact ⟨.inl, fun h => h.elim id nofun⟩

theorem Reasoned.andThen (hx : x.Reasoned) (hg : ∀ a, (g a).Reasoned) :
    (x.andThen g).Reasoned := by
  cases x with
  | ok a => exact hg a
  | error es => exact fun hnone => absurd (hx hnone) (by simp)

theorem nodup_places_andThen (hx : (x.errors.map Issue.place).Nodup)
    (hg : ∀ a, ((g a).errors.map Issue.place).Nodup) :
    ((x.andThen g).errors.map Issue.place).Nodup := by
  cases x with
  | ok a => exact hg a
  | error es => exact hx

theorem errors_ofFound (found : List β) (issue : β → Issue) :
    (if found.isEmpty then .ok () else .error (found.map issue) : Checked Unit).errors =
      found.map issue := by
  cases found <;> rfl

theorem reasoned_ofFound (found : List β) (issue : β → Issue) :
    (if found.isEmpty then .ok () else .error (found.map issue) : Checked Unit).Reasoned := by
  cases found with
  | nil => exact reasoned_ok ()
  | cons => exact nofun

/-! ### Checks with one error -/

/-- The check finds out what a value means or, if it means nothing, the one thing that is wrong with
it. -/
structure Settles (x : Checked α) (means : α → Prop) (wrong : Issue → Prop) : Prop where
  outcome : (∃ a, x = .ok a ∧ means a) ∨ ∃ i, x = .error [i] ∧ wrong i
  means_unique : ∀ a b, means a → means b → a = b
  wrong_unique : ∀ i j, wrong i → wrong j → i = j
  apart : ∀ a i, means a → ¬wrong i

namespace Settles

variable {means : α → Prop} {wrong : Issue → Prop} (h : x.Settles means wrong)

include h

theorem eq_ok {a : α} : x = .ok a ↔ means a := by
  rcases h.outcome with ⟨b, rfl, hb⟩ | ⟨i, rfl, hi⟩
  · constructor
    · intro heq
      exact Except.ok.inj heq ▸ hb
    · intro ha
      rw [h.means_unique a b ha hb]
  · constructor
    · exact nofun
    · exact fun ha => absurd hi (h.apart a i ha)

theorem mem_errors {i : Issue} : i ∈ x.errors ↔ wrong i := by
  rcases h.outcome with ⟨a, rfl, ha⟩ | ⟨j, rfl, hj⟩
  · constructor
    · exact fun hmem => absurd hmem List.not_mem_nil
    · exact fun hi => absurd hi (h.apart a i ha)
  · show i ∈ [j] ↔ _
    rw [List.mem_singleton]
    constructor
    · exact fun heq => heq ▸ hj
    · exact fun hi => h.wrong_unique i j hi hj

theorem reasoned : x.Reasoned := by
  rcases h.outcome with ⟨a, rfl, -⟩ | ⟨i, rfl, -⟩
  · exact reasoned_ok a
  · exact nofun

theorem nodup_places : (x.errors.map Issue.place).Nodup := by
  rcases h.outcome with ⟨a, rfl, -⟩ | ⟨i, rfl, -⟩
  · exact List.nodup_nil
  · exact List.pairwise_singleton _ _

end Settles

/-! ### Items -/

variable {check : Data → Checked α} {position : Nat} {ds : List Data}

theorem items_eq_ok {as : List α} :
    items check position ds = .ok as ↔ List.Forall₂ (fun d a => check d = .ok a) ds as := by
  induction ds generalizing position as with
  | nil =>
    rw [List.forall₂_nil_left_iff]
    exact ⟨fun h => (Except.ok.inj h).symm, fun h => h ▸ rfl⟩
  | cons d ds ih =>
    rw [items, seq_eq_ok, List.forall₂_cons_left_iff]
    constructor
    · rintro ⟨g, hg, as, has, rfl⟩
      obtain ⟨a, ha, rfl⟩ := map_eq_ok.1 hg
      exact ⟨a, as, under_eq_ok.1 ha, ih.1 has, rfl⟩
    · rintro ⟨a, as, ha, has, rfl⟩
      exact ⟨_, map_eq_ok.2 ⟨a, under_eq_ok.2 ha, rfl⟩, as, ih.2 has, rfl⟩

theorem mem_errors_items {i : Issue} :
    i ∈ (items check position ds).errors ↔
      ∃ (n : Nat) (d : Data) (j : Issue), ds[n]? = some d ∧ j ∈ (check d).errors ∧
        i = j.below (toString (position + n)) := by
  induction ds generalizing position with
  | nil => simp [items, errors]
  | cons d ds ih =>
    rw [items, errors_seq, errors_map, errors_under, List.mem_append, ih, List.mem_map]
    constructor
    · rintro (⟨j, hj, rfl⟩ | ⟨n, d', j, hn, hj, rfl⟩)
      · exact ⟨0, d, j, rfl, hj, rfl⟩
      · exact ⟨n + 1, d', j, hn, hj, by rw [Nat.add_right_comm, Nat.add_assoc]⟩
    · rintro ⟨n, d', j, hn, hj, rfl⟩
      cases n with
      | zero =>
        obtain rfl : d = d' := Option.some.inj hn
        exact .inl ⟨j, hj, rfl⟩
      | succ n => exact .inr ⟨n, d', j, hn, hj, by rw [Nat.add_right_comm, Nat.add_assoc]⟩

theorem reasoned_items (h : ∀ d, (check d).Reasoned) : (items check position ds).Reasoned := by
  induction ds generalizing position with
  | nil => exact reasoned_ok []
  | cons d ds ih => exact (((h d).under _).map _).seq ih

theorem nodup_places_below {es : List Issue} (h : (es.map Issue.place).Nodup) (key : String) :
    ((es.map (Issue.below key)).map Issue.place).Nodup := by
  have hcons : (es.map (Issue.below key)).map Issue.place =
      (es.map Issue.place).map (key :: ·) := by
    rw [List.map_map, List.map_map]
    rfl
  rw [hcons]
  exact List.Nodup.map (fun _ _ heq => (List.cons.inj heq).2) h

theorem position_inj {m n : Nat} (h : toString m = toString n) : m = n := by
  rw [Nat.toString_eq_ofList_toDigits, Nat.toString_eq_ofList_toDigits] at h
  have hdigits := congrArg (Nat.ofDigitChars 10 · 0) (String.ofList_injective h)
  simpa only [Nat.ofDigitChars_ten_toDigits] using hdigits

/-- The errors of a list are at different places if those of each item are. -/
theorem nodup_places_items (h : ∀ d ∈ ds, ((check d).errors.map Issue.place).Nodup) :
    ((items check position ds).errors.map Issue.place).Nodup := by
  induction ds generalizing position with
  | nil => exact List.nodup_nil
  | cons d ds ih =>
    obtain ⟨hd, hds⟩ := List.forall_mem_cons.1 h
    rw [items, errors_seq, errors_map, errors_under, List.map_append]
    refine List.nodup_append.2 ⟨nodup_places_below hd _, ih hds, ?_⟩
    rintro place hplace _ hplace' rfl
    obtain ⟨i, hi, rfl⟩ := List.mem_map.1 hplace
    obtain ⟨j, -, rfl⟩ := List.mem_map.1 hi
    obtain ⟨i', hi', heq⟩ := List.mem_map.1 hplace'
    obtain ⟨n, _, j', -, -, rfl⟩ := mem_errors_items.1 hi'
    -- the positions of the later items are greater
    have hposition := position_inj (List.cons.inj heq).1
    omega

theorem toListOf_eq_ok {d : Data} {as : List α} :
    d.toListOf check = .ok as ↔
      ∃ ds, d = .list ds ∧ List.Forall₂ (fun d a => check d = .ok a) ds as := by
  cases d with
  | list ds =>
    constructor
    · exact fun h => ⟨ds, rfl, items_eq_ok.1 h⟩
    · rintro ⟨ds', heq, h⟩
      obtain rfl := Data.list.inj heq
      exact items_eq_ok.2 h
  | _ =>
    constructor
    · exact fun h => absurd h reject_ne_ok
    · exact fun ⟨_, heq, _⟩ => nomatch heq

theorem mem_errors_toListOf {d : Data} {i : Issue} :
    i ∈ (d.toListOf check).errors ↔
      (∃ (ds : List Data) (n : Nat) (d' : Data) (j : Issue), d = .list ds ∧ ds[n]? = some d' ∧
        j ∈ (check d').errors ∧ i = j.below (toString n)) ∨
      (∀ ds, d ≠ .list ds) ∧ i = ⟨[], .listType, d⟩ := by
  cases d with
  | list ds =>
    rw [Data.toListOf, mem_errors_items]
    simp only [Nat.zero_add]
    constructor
    · exact fun ⟨n, d', j, h⟩ => .inl ⟨ds, n, d', j, rfl, h⟩
    · rintro (⟨ds', n, d', j, heq, h⟩ | ⟨hkind, -⟩)
      · obtain rfl := Data.list.inj heq
        exact ⟨n, d', j, h⟩
      · exact absurd rfl (hkind ds)
  | _ =>
    constructor
    · exact fun hi => .inr ⟨nofun, List.mem_singleton.1 hi⟩
    · rintro (⟨_, _, _, _, heq, -⟩ | ⟨-, rfl⟩)
      · cases heq
      · exact List.mem_singleton.2 rfl

theorem reasoned_toListOf (h : ∀ d, (check d).Reasoned) (d : Data) :
    (d.toListOf check).Reasoned := by
  cases d with
  | list ds => exact reasoned_items h
  | _ => exact reasoned_reject _ _

theorem nodup_places_toListOf {d : Data}
    (h : ∀ ds, d = .list ds → ∀ d' ∈ ds, ((check d').errors.map Issue.place).Nodup) :
    ((d.toListOf check).errors.map Issue.place).Nodup := by
  cases d with
  | list ds => exact nodup_places_items (h ds rfl)
  | _ => exact List.pairwise_singleton _ _

end Checked

/-! ### Fields -/

namespace TableFields

variable {fields : TableFields} {keys : List String} {groups : List (List String)}
  {key : String} {d : Data}

/-- The part with these keys is taken from this field: the table has none of the preferred keys. -/
structure Takes (fields : TableFields) (keys : List String) (key : String) (d : Data) : Prop where
  mem : (key, d) ∈ fields
  first : ∃ before after, keys = before ++ key :: after ∧ ∀ k ∈ before, ∀ f ∈ fields, f.1 ≠ k

/-- No part is taken from the field with this key. -/
def LeftOver (fields : TableFields) (groups : List (List String)) (key : String) : Prop :=
  ∀ keys ∈ groups, ∀ d, ¬fields.Takes keys key d

/-- The table has only keys of the groups, and at most one of each group. -/
structure OnlyKeys (fields : TableFields) (groups : List (List String)) : Prop where
  known : ∀ f ∈ fields, ∃ keys ∈ groups, f.1 ∈ keys
  once : ∀ keys ∈ groups, ∀ f ∈ fields, ∀ g ∈ fields, f.1 ∈ keys → g.1 ∈ keys → f = g

theorem value_unique (hnodup : (fields.map Prod.fst).Nodup) {d' : Data} (h : (key, d) ∈ fields)
    (h' : (key, d') ∈ fields) : d = d' :=
  (Prod.mk.inj (List.inj_on_of_nodup_map hnodup h h' rfl)).2

theorem lookup_of_mem (hnodup : (fields.map Prod.fst).Nodup) (h : (key, d) ∈ fields) :
    fields.lookup key = some d := by
  obtain ⟨before, after, rfl⟩ := List.append_of_mem h
  refine List.lookup_eq_some_iff.2 ⟨before, after, rfl, fun f hf => ?_⟩
  rw [List.map_append, List.nodup_append] at hnodup
  have hne := hnodup.2.2 f.1 (List.mem_map_of_mem hf) key (by simp)
  simpa using hne.symm

theorem lookup_eq_some_iff (hnodup : (fields.map Prod.fst).Nodup) :
    fields.lookup key = some d ↔ (key, d) ∈ fields := by
  refine ⟨fun h => ?_, lookup_of_mem hnodup⟩
  obtain ⟨before, after, rfl, -⟩ := List.lookup_eq_some_iff.1 h
  simp

theorem lookup_eq_none_iff : fields.lookup key = none ↔ ∀ f ∈ fields, f.1 ≠ key := by
  rw [List.lookup_eq_none_iff]
  refine forall₂_congr fun f _ => ?_
  simpa using ne_comm

theorem find?_eq_none_iff : fields.find? keys = none ↔ ∀ f ∈ fields, f.1 ∉ keys := by
  rw [find?, List.findSome?_eq_none_iff]
  constructor
  · intro h f hf hkey
    exact lookup_eq_none_iff.1 (Option.map_eq_none_iff.1 (h f.1 hkey)) f hf rfl
  · intro h k hk
    refine Option.map_eq_none_iff.2 (lookup_eq_none_iff.2 fun f hf heq => ?_)
    exact h f hf (heq ▸ hk)

theorem find?_eq_some_iff (hnodup : (fields.map Prod.fst).Nodup) :
    fields.find? keys = some (key, d) ↔ fields.Takes keys key d := by
  rw [find?, List.findSome?_eq_some_iff]
  constructor
  · rintro ⟨before, k, after, rfl, hfound, hbefore⟩
    obtain ⟨d', hd', heq⟩ := Option.map_eq_some_iff.1 hfound
    obtain ⟨rfl, rfl⟩ := Prod.mk.inj heq
    refine ⟨(lookup_eq_some_iff hnodup).1 hd', before, after, rfl, fun k' hk' => ?_⟩
    exact lookup_eq_none_iff.1 (Option.map_eq_none_iff.1 (hbefore k' hk'))
  · rintro ⟨hmem, before, after, rfl, hbefore⟩
    refine ⟨before, key, after, rfl, by rw [lookup_of_mem hnodup hmem]; rfl, fun k hk => ?_⟩
    exact Option.map_eq_none_iff.2 (lookup_eq_none_iff.2 (hbefore k hk))

theorem find?_of_mem (hnodup : (fields.map Prod.fst).Nodup) (h : (key, d) ∈ fields)
    (others : List String) : fields.find? (key :: others) = some (key, d) :=
  (find?_eq_some_iff hnodup).2 ⟨h, [], others, rfl, nofun⟩

theorem Takes.mem_keys (h : fields.Takes keys key d) : key ∈ keys := by
  obtain ⟨before, after, rfl, -⟩ := h.first
  simp

theorem Takes.unique (hnodup : (fields.map Prod.fst).Nodup) {key' : String} {d' : Data}
    (h : fields.Takes keys key d) (h' : fields.Takes keys key' d') : key = key' ∧ d = d' := by
  have heq := ((find?_eq_some_iff hnodup).2 h).symm.trans ((find?_eq_some_iff hnodup).2 h')
  exact Prod.mk.inj (Option.some.inj heq)

/-- The first of the keys that a table has is the one that the part is taken from. -/
theorem exists_takes (hnodup : (fields.map Prod.fst).Nodup) {f : String × Data} (hf : f ∈ fields)
    (hkey : f.1 ∈ keys) : ∃ key d, fields.Takes keys key d := by
  cases hfound : fields.find? keys with
  | none => exact absurd hkey (find?_eq_none_iff.1 hfound f hf)
  | some found => exact ⟨found.1, found.2, (find?_eq_some_iff hnodup).1 hfound⟩

/-- Where a table has at most one key of a part, the part is taken from each field with such a
key. -/
theorem OnlyKeys.takes_iff (hnodup : (fields.map Prod.fst).Nodup) (h : fields.OnlyKeys groups)
    (hkeys : keys ∈ groups) : fields.Takes keys key d ↔ (key, d) ∈ fields ∧ key ∈ keys := by
  constructor
  · exact fun ht => ⟨ht.mem, ht.mem_keys⟩
  · rintro ⟨hmem, hkey⟩
    obtain ⟨key', d', ht⟩ := exists_takes hnodup hmem hkey
    have heq := h.once keys hkeys _ hmem _ ht.mem hkey ht.mem_keys
    obtain ⟨rfl, rfl⟩ := Prod.mk.inj heq
    exact ht

/-- Nothing is left over in a table if and only if it has only keys of the groups and at most one
of each group. -/
theorem onlyKeys_iff (hnodup : (fields.map Prod.fst).Nodup)
    (hgroups : groups.Pairwise List.Disjoint) :
    fields.OnlyKeys groups ↔ ∀ f ∈ fields, ¬fields.LeftOver groups f.1 := by
  have hsame {ks ks' : List String} (hks : ks ∈ groups) (hks' : ks' ∈ groups) {k : String}
      (hk : k ∈ ks) (hk' : k ∈ ks') : ks = ks' := by
    have : Std.Symm (List.Disjoint (α := String)) := ⟨fun _ _ h _ hb ha => h ha hb⟩
    rcases eq_or_ne ks ks' with heq | hne
    · exact heq
    · exact absurd hk' (hgroups.forall hks hks' hne hk)
  constructor
  · intro h f hf hleft
    obtain ⟨ks, hks, hkey⟩ := h.known f hf
    exact hleft ks hks f.2 ((h.takes_iff hnodup hks).2 ⟨hf, hkey⟩)
  · intro h
    have htaken (f : String × Data) (hf : f ∈ fields) :
        ∃ ks ∈ groups, ∃ d, fields.Takes ks f.1 d := by
      simpa only [LeftOver, not_forall, not_not, exists_prop] using h f hf
    constructor
    · intro f hf
      obtain ⟨ks, hks, d, ht⟩ := htaken f hf
      exact ⟨ks, hks, ht.mem_keys⟩
    · intro ks hks f hf g hg hfkey hgkey
      obtain ⟨_, hks₁, d, ht⟩ := htaken f hf
      obtain rfl := hsame hks hks₁ hfkey ht.mem_keys
      obtain ⟨_, hks₂, d', ht'⟩ := htaken g hg
      obtain rfl := hsame hks hks₂ hgkey ht'.mem_keys
      -- both fields have the key from which the part is taken
      have hkeys : f.1 = g.1 := (ht.unique hnodup ht').1
      exact List.inj_on_of_nodup_map hnodup hf hg hkeys

theorem takes_singleton {k : String} : fields.Takes [k] key d ↔ key = k ∧ (k, d) ∈ fields := by
  constructor
  · intro ht
    obtain rfl := List.mem_singleton.1 ht.mem_keys
    exact ⟨rfl, ht.mem⟩
  · rintro ⟨rfl, hmem⟩
    exact ⟨hmem, [], [], rfl, nofun⟩

theorem onlyKeys_singleton (hnodup : (fields.map Prod.fst).Nodup) {k : String} :
    fields.OnlyKeys [[k]] ↔ ∀ f ∈ fields, f.1 = k := by
  constructor
  · intro h f hf
    obtain ⟨keys, hkeys, hkey⟩ := h.known f hf
    obtain rfl := List.mem_singleton.1 hkeys
    exact List.mem_singleton.1 hkey
  · intro h
    constructor
    · intro f hf
      exact ⟨[k], List.mem_singleton.2 rfl, List.mem_singleton.2 (h f hf)⟩
    · intro _ _ f hf g hg _ _
      exact List.inj_on_of_nodup_map hnodup hf hg ((h f hf).trans (h g hg).symm)

theorem leftOver_singleton (h : (key, d) ∈ fields) {k : String} :
    fields.LeftOver [[k]] key ↔ key ≠ k := by
  constructor
  · rintro hleft rfl
    exact hleft [key] (List.mem_singleton.2 rfl) d (takes_singleton.2 ⟨rfl, h⟩)
  · intro hne keys hkeys d' ht
    obtain rfl := List.mem_singleton.1 hkeys
    exact hne (takes_singleton.1 ht).1

/-! ### Checks of fields -/

variable {α : Type} {default : α} {check : Data → Checked α}

/-- What a table gives for a part: what the field means that the part is taken from, and the default
if the table has no key of the part. -/
def Gives (fields : TableFields) (keys : List String) (default : α) (means : Data → α → Prop)
    (a : α) : Prop :=
  (∃ key d, fields.Takes keys key d ∧ means d a) ∨ (∀ f ∈ fields, f.1 ∉ keys) ∧ a = default

variable {means means' : Data → α → Prop}

theorem gives_congr (h : ∀ f ∈ fields, ∀ a, means f.2 a ↔ means' f.2 a) {a : α} :
    fields.Gives keys default means a ↔ fields.Gives keys default means' a := by
  apply or_congr_left
  constructor
  · rintro ⟨key, d, ht, hd⟩
    exact ⟨key, d, ht, (h _ ht.mem a).1 hd⟩
  · rintro ⟨key, d, ht, hd⟩
    exact ⟨key, d, ht, (h _ ht.mem a).2 hd⟩

/-- A table gives something for a part if each of its values under a key of the part means
something. -/
theorem OnlyKeys.exists_gives_iff (hnodup : (fields.map Prod.fst).Nodup)
    (h : fields.OnlyKeys groups) (hkeys : keys ∈ groups) :
    (∃ a, fields.Gives keys default means a) ↔ ∀ f ∈ fields, f.1 ∈ keys → ∃ a, means f.2 a := by
  constructor
  · rintro ⟨a, ⟨key, d, ht, hd⟩ | ⟨hnone, -⟩⟩ f hf hkey
    · have ht' : fields.Takes keys f.1 f.2 := (h.takes_iff hnodup hkeys).2 ⟨hf, hkey⟩
      obtain ⟨-, rfl⟩ := ht.unique hnodup ht'
      exact ⟨a, hd⟩
    · exact absurd hkey (hnone f hf)
  · intro hmeans
    cases hfound : fields.find? keys with
    | none => exact ⟨default, .inr ⟨find?_eq_none_iff.1 hfound, rfl⟩⟩
    | some found =>
      have ht := (find?_eq_some_iff hnodup).1 hfound
      obtain ⟨a, ha⟩ := hmeans found ht.mem ht.mem_keys
      exact ⟨a, .inl ⟨found.1, found.2, ht, ha⟩⟩

theorem checkOr_eq_ok (hnodup : (fields.map Prod.fst).Nodup) {a : α} :
    fields.checkOr keys default check = .ok a ↔
      fields.Gives keys default (fun d a => check d = .ok a) a := by
  rw [checkOr, Gives]
  cases hfound : fields.find? keys with
  | none =>
    have hnone := find?_eq_none_iff.1 hfound
    constructor
    · exact fun h => .inr ⟨hnone, (Except.ok.inj h).symm⟩
    · rintro (⟨key, d, ht, -⟩ | ⟨-, rfl⟩)
      · exact absurd ht.mem_keys (hnone _ ht.mem)
      · rfl
  | some found =>
    have ht := (find?_eq_some_iff hnodup).1 hfound
    constructor
    · exact fun h => .inl ⟨found.1, found.2, ht, Checked.under_eq_ok.1 h⟩
    · rintro (⟨key, d, ht', h⟩ | ⟨hnone, -⟩)
      · obtain ⟨-, rfl⟩ := ht.unique hnodup ht'
        exact Checked.under_eq_ok.2 h
      · exact absurd ht.mem_keys (hnone _ ht.mem)

/-- What is wrong with a part is what is wrong with the field that it is taken from. -/
theorem mem_errors_checkOr (hnodup : (fields.map Prod.fst).Nodup) {i : Issue} :
    i ∈ (fields.checkOr keys default check).errors ↔
      ∃ key d j, fields.Takes keys key d ∧ j ∈ (check d).errors ∧ i = j.below key := by
  rw [checkOr]
  cases hfound : fields.find? keys with
  | none =>
    constructor
    · exact fun h => absurd h List.not_mem_nil
    · rintro ⟨key, d, j, ht, -⟩
      exact absurd ht.mem_keys (find?_eq_none_iff.1 hfound _ ht.mem)
  | some found =>
    have ht := (find?_eq_some_iff hnodup).1 hfound
    simp only [Checked.errors_under, List.mem_map]
    constructor
    · rintro ⟨j, hj, rfl⟩
      exact ⟨found.1, found.2, j, ht, hj, rfl⟩
    · rintro ⟨key, d, j, ht', hj, rfl⟩
      obtain ⟨rfl, rfl⟩ := ht.unique hnodup ht'
      exact ⟨j, hj, rfl⟩

section Settled

variable {wrong : Data → Complaint → Prop}
  (hcheck : ∀ d, (check d).Settles (means d) (Issue.OfValue d (wrong d)))

include hcheck

theorem checkOr_settled_eq_ok (hnodup : (fields.map Prod.fst).Nodup) {a : α} :
    fields.checkOr keys default check = .ok a ↔ fields.Gives keys default means a := by
  rw [checkOr_eq_ok hnodup]
  exact gives_congr fun f _ _ => (hcheck f.2).eq_ok

theorem mem_errors_checkOr_settled (hnodup : (fields.map Prod.fst).Nodup) {i : Issue} :
    i ∈ (fields.checkOr keys default check).errors ↔
      ∃ key d c, fields.Takes keys key d ∧ wrong d c ∧ i = ⟨[key], c, d⟩ := by
  rw [mem_errors_checkOr hnodup]
  constructor
  · rintro ⟨key, d, j, ht, hj, rfl⟩
    obtain ⟨c, hc, rfl⟩ := (hcheck d).mem_errors.1 hj
    exact ⟨key, d, c, ht, hc, rfl⟩
  · rintro ⟨key, d, c, ht, hc, rfl⟩
    exact ⟨key, d, ⟨[], c, d⟩, ht, (hcheck d).mem_errors.2 ⟨c, hc, rfl⟩, rfl⟩

end Settled

theorem reasoned_checkOr (h : ∀ d, (check d).Reasoned) :
    (fields.checkOr keys default check).Reasoned := by
  rw [checkOr]
  split
  · exact (h _).under _
  · exact Checked.reasoned_ok default

theorem errors_checkNoExtra : (fields.checkNoExtra groups).errors =
    (fields.filter fun f => f.1 ∉ groups.filterMap fun ks => (fields.find? ks).map Prod.fst).map
      fun f => ⟨[f.1], .extraForbidden, f.2⟩ :=
  Checked.errors_ofFound _ _

theorem mem_errors_checkNoExtra (hnodup : (fields.map Prod.fst).Nodup) {i : Issue} :
    i ∈ (fields.checkNoExtra groups).errors ↔
      ∃ key d, (key, d) ∈ fields ∧ fields.LeftOver groups key ∧
        i = ⟨[key], .extraForbidden, d⟩ := by
  have hleft (key : String) :
      (key ∉ groups.filterMap fun ks => (fields.find? ks).map Prod.fst) ↔
        fields.LeftOver groups key := by
    rw [List.mem_filterMap]
    constructor
    · intro h ks hks d ht
      exact h ⟨ks, hks, by rw [(find?_eq_some_iff hnodup).2 ht]; rfl⟩
    · rintro h ⟨ks, hks, hfound⟩
      obtain ⟨⟨key', d⟩, hd, rfl⟩ := Option.map_eq_some_iff.1 hfound
      exact h ks hks d ((find?_eq_some_iff hnodup).1 hd)
  rw [errors_checkNoExtra, List.mem_map]
  constructor
  · rintro ⟨f, hf, rfl⟩
    obtain ⟨hmem, hextra⟩ := List.mem_filter.1 hf
    exact ⟨f.1, f.2, hmem, (hleft f.1).1 (of_decide_eq_true hextra), rfl⟩
  · rintro ⟨key, d, hmem, hextra, rfl⟩
    exact ⟨(key, d), List.mem_filter.2 ⟨hmem, decide_eq_true ((hleft key).2 hextra)⟩, rfl⟩

theorem reasoned_checkNoExtra : (fields.checkNoExtra groups).Reasoned :=
  Checked.reasoned_ofFound _ _

theorem checkNoExtra_eq_ok (hnodup : (fields.map Prod.fst).Nodup)
    (hgroups : groups.Pairwise List.Disjoint) :
    fields.checkNoExtra groups = .ok () ↔ fields.OnlyKeys groups := by
  rw [onlyKeys_iff hnodup hgroups]
  constructor
  · intro h f hf hleft
    have hmem := (mem_errors_checkNoExtra hnodup).2 ⟨f.1, f.2, hf, hleft, rfl⟩
    rw [h] at hmem
    cases hmem
  · intro h
    obtain ⟨_, hok⟩ := reasoned_checkNoExtra (List.eq_nil_iff_forall_not_mem.2 fun i hi => by
      obtain ⟨key, d, hmem, hleft, -⟩ := (mem_errors_checkNoExtra hnodup).1 hi
      exact h _ hmem hleft)
    exact hok

/-! ### Where errors are -/

/-- Errors of the part with these keys. Each is below one of them, from whose field the part is
taken if there is one, and no two are at one place. -/
structure PartErrors (fields : TableFields) (keys : List String) (es : List Issue) : Prop where
  below : ∀ i ∈ es, ∃ key ∈ keys, (∃ rest, i.place = key :: rest) ∧
    ∀ d, (key, d) ∈ fields → fields.Takes keys key d
  places : (es.map Issue.place).Nodup

theorem partErrors_checkOr (hnodup : (fields.map Prod.fst).Nodup)
    (h : ∀ f ∈ fields, ((check f.2).errors.map Issue.place).Nodup) :
    fields.PartErrors keys (fields.checkOr keys default check).errors where
  below i hi := by
    obtain ⟨key, d, j, ht, -, rfl⟩ := (mem_errors_checkOr hnodup).1 hi
    refine ⟨key, ht.mem_keys, ⟨j.place, rfl⟩, fun d' hmem => ?_⟩
    exact value_unique hnodup ht.mem hmem ▸ ht
  places := by
    rw [checkOr]
    cases hfound : fields.find? keys with
    | none => exact List.nodup_nil
    | some found =>
      simp only [Checked.errors_under]
      exact Checked.nodup_places_below (h found ((find?_eq_some_iff hnodup).1 hfound).mem) _

theorem nodup_places_checkNoExtra (hnodup : (fields.map Prod.fst).Nodup) :
    ((fields.checkNoExtra groups).errors.map Issue.place).Nodup := by
  have hplaces (found : TableFields) (h : (found.map Prod.fst).Nodup) :
      ((found.map fun f => (⟨[f.1], .extraForbidden, f.2⟩ : Issue)).map Issue.place).Nodup := by
    rw [List.map_map]
    refine List.pairwise_map.2 ((List.pairwise_map.1 h).imp fun hne heq => ?_)
    exact hne (List.cons.inj heq).1
  rw [errors_checkNoExtra]
  exact hplaces _ (hnodup.sublist (List.filter_sublist.map Prod.fst))

/-- The errors of a table are at different places if those of each part are. -/
theorem nodup_places_parts (hnodup : (fields.map Prod.fst).Nodup)
    {parts : List (List String × List Issue)}
    (hdisjoint : (parts.map Prod.fst).Pairwise List.Disjoint)
    (hgroups : ∀ part ∈ parts, part.1 ∈ groups)
    (hparts : ∀ part ∈ parts, fields.PartErrors part.1 part.2) :
    ((parts.flatMap Prod.snd ++ (fields.checkNoExtra groups).errors).map Issue.place).Nodup := by
  rw [List.map_append, List.map_flatMap]
  refine List.nodup_append.2 ⟨List.nodup_flatMap.2 ⟨fun part hpart => ?_, ?_⟩, ?_, ?_⟩
  · exact (hparts part hpart).places
  · refine (List.pairwise_map.1 hdisjoint).imp_of_mem ?_
    intro part part' hpart hpart' hkeys place hplace hplace'
    obtain ⟨i, hi, rfl⟩ := List.mem_map.1 hplace
    obtain ⟨i', hi', heq⟩ := List.mem_map.1 hplace'
    obtain ⟨key, hkey, ⟨rest, hrest⟩, -⟩ := (hparts part hpart).below i hi
    obtain ⟨key', hkey', ⟨rest', hrest'⟩, -⟩ := (hparts part' hpart').below i' hi'
    obtain ⟨rfl, -⟩ := List.cons.inj (hrest.symm.trans (heq.symm.trans hrest'))
    exact hkeys hkey hkey'
  · exact nodup_places_checkNoExtra hnodup
  · rintro place hplace _ hplace' rfl
    obtain ⟨part, hpart, hplace⟩ := List.mem_flatMap.1 hplace
    obtain ⟨i, hi, rfl⟩ := List.mem_map.1 hplace
    obtain ⟨i', hi', heq⟩ := List.mem_map.1 hplace'
    obtain ⟨key, -, ⟨rest, hrest⟩, htakes⟩ := (hparts part hpart).below i hi
    obtain ⟨key', d, hmem, hleft, rfl⟩ := (mem_errors_checkNoExtra hnodup).1 hi'
    obtain ⟨rfl, -⟩ := List.cons.inj (heq.trans hrest)
    exact hleft _ (hgroups part hpart) d (htakes d hmem)

end TableFields

end VendorTree
