import VendorTree.Toml.Draft

/-!
# Places in documents in the making

A header names a table of the document, and the lines below it change that table only. A place is
such a table, seen as a function that puts new fields where the old ones are. Places are built from
the outside in, one key after the other.
-/

namespace VendorTree.Toml

/-! ### Finished fields -/

/-- Fields whose values were assigned. -/
def valueFields (fields : List (String × Data)) : Fields := fields.map fun f => (f.1, .value f.2)

theorem lookup_valueFields (fields : List (String × Data)) (key : String) :
    (valueFields fields).lookup key = (fields.lookup key).map Draft.value := by
  induction fields with
  | nil => rfl
  | cons f fields ih =>
    rw [valueFields, List.map_cons, List.lookup_cons, List.lookup_cons, ← valueFields, ih]
    split <;> rfl

@[simp] theorem finishFields_append (a b : Fields) :
    finishFields (a ++ b) = finishFields a ++ finishFields b := by
  induction a with
  | nil => rfl
  | cons f a ih => rw [List.cons_append, finishFields, ih, finishFields, List.cons_append]

@[simp] theorem finishFields_valueFields (fields : List (String × Data)) :
    finishFields (valueFields fields) = fields := by
  induction fields with
  | nil => rfl
  | cons f fields ih =>
    rw [valueFields, List.map_cons, finishFields, ← valueFields, ih, Draft.finish]

namespace Fields

variable {fields before : Fields} {key : String}

/-! ### Setting fields -/

theorem set_append_of_lookup_none (h : before.lookup key = none) (d : Draft) (after : Fields) :
    (before ++ after).set key d = before ++ after.set key d := by
  induction before with
  | nil => rfl
  | cons f before ih =>
    rw [List.lookup_cons] at h
    split at h
    · simp at h
    · rename_i hkey
      have hne : f.1 ≠ key := fun heq => by simp [heq] at hkey
      rw [List.cons_append, set, if_neg hne, ih h, List.cons_append]

theorem set_of_lookup_none (h : fields.lookup key = none) (d : Draft) :
    fields.set key d = fields ++ [(key, d)] := by
  have hset := set_append_of_lookup_none h d []
  rwa [List.append_nil] at hset

theorem set_concat (h : before.lookup key = none) (d e : Draft) :
    (before ++ [(key, e)]).set key d = before ++ [(key, d)] := by
  rw [set_append_of_lookup_none h, set, if_pos rfl]

theorem lookup_concat (h : before.lookup key = none) (d : Draft) :
    (before ++ [(key, d)]).lookup key = some d := by
  simp [List.lookup_append, h]

theorem assignInLine_new (h : fields.lookup key = none) (v : Data) :
    assignInLine [] key v fields = .ok (fields ++ [(key, .value v)]) := by
  simp [assignInLine, within, h, set_of_lookup_none h]

/-! ### Places -/

/-- The fields that `build` puts into a document are those of the table that a header names. -/
def IsPlace (header : List String) (build : Fields → Fields) : Prop :=
  ∀ (fixed : Misfit) (change : Fields → Except Misfit Fields) (past : List String)
    (fields : Fields),
    within (fun _ => openForHeader fixed) change past header (build fields) =
      (change fields).map build

theorem isPlace_nil : IsPlace [] id := by
  intro fixed change past fields
  rw [within, id_eq]
  cases change fields <;> rfl

variable {header : List String} {build : Fields → Fields}

/-- A place in a part that headers open is a place in the whole. -/
theorem IsPlace.inside (h : IsPlace header build) (hkey : before.lookup key = none)
    {wrap : Fields → Draft}
    (hopen : ∀ fixed fields, openForHeader fixed (some (wrap fields)) = .ok (fields, wrap)) :
    IsPlace (key :: header) fun fields => before ++ [(key, wrap (build fields))] := by
  intro fixed change past fields
  rw [within, lookup_concat hkey, hopen]
  simp only [bind, Except.bind, h fixed change]
  cases change fields with
  | error misfit => rfl
  | ok inner => simp [Except.map, pure, Except.pure, set_concat hkey]

/-- A place in a table of a document is one of the document. -/
theorem IsPlace.table (h : IsPlace header build) (hkey : before.lookup key = none) (mark : Mark) :
    IsPlace (key :: header) fun fields => before ++ [(key, .table mark (build fields))] :=
  h.inside hkey fun _ _ => rfl

/-- A place in the last table of a list is one of the document. -/
theorem IsPlace.tables (h : IsPlace header build) (hkey : before.lookup key = none)
    (finished : List Data) :
    IsPlace (key :: header) fun fields => before ++ [(key, .tables finished (build fields))] :=
  h.inside hkey fun _ _ => rfl

theorem IsPlace.assign_new (h : IsPlace header build) (hkey : fields.lookup key = none) (v : Data) :
    assign header [] key v (build fields) = .ok (build (fields ++ [(key, .value v)])) := by
  rw [assign, withinHeader, h]
  simp [within, hkey, set_of_lookup_none hkey, Except.map]

/-- The first table of a list begins behind the other fields. -/
theorem IsPlace.beginNext_new (h : IsPlace header build) (hkey : fields.lookup key = none) :
    beginNext header key (build fields) = .ok (build (fields ++ [(key, .tables [] [])])) := by
  rw [beginNext, withinHeader, h]
  simp [hkey, set_of_lookup_none hkey, Except.map]

/-- The next table of a list begins when the one before it is finished. -/
theorem IsPlace.beginNext_more (h : IsPlace header build) (hkey : before.lookup key = none)
    (finished : List Data) (last : Fields) :
    beginNext header key (build (before ++ [(key, .tables finished last)])) =
      .ok (build (before ++
        [(key, .tables (finished ++ [.table (finishFields last)]) [])])) := by
  rw [beginNext, withinHeader, h]
  simp [lookup_concat hkey, set_concat hkey, Except.map]

end Fields

end VendorTree.Toml
