import VendorTree.Proofs.Drafts
import VendorTree.Proofs.QuotedTexts

/-!
# Written values

A form is a list of characters that is read as a value wherever it stands. The forms here are those
that the writer produces: texts and truth values, tables of these on one line, and lists of such
tables with an item to a line.

The bound on the number of values never matters, since a form holds more characters than values.
-/

namespace VendorTree.Toml

/-! ### Keys -/

/-- A text that is a key without quotes around it. -/
def IsPlainKey (key : String) : Prop := key ≠ "" ∧ ∀ c ∈ key.toList, isKeyChar c = true

instance (key : String) : Decidable (IsPlainKey key) :=
  @instDecidableAnd _ _ _ (List.decidableBAll _ _)

/-- What a plain key starts with is no blank and no other mark. -/
theorem IsPlainKey.exists_cons {key : String} (h : IsPlainKey key) :
    ∃ c cs, key.toList = c :: cs ∧ isKeyChar c = true := by
  cases hkey : key.toList with
  | nil => exact absurd (String.toList_eq_nil_iff.1 hkey) h.1
  | cons c cs => exact ⟨c, cs, rfl, h.2 c (by simp [hkey])⟩

theorem not_isSpace_of_isKeyChar {c : Char} (h : isKeyChar c = true) : isSpace c = false := by
  rw [Bool.eq_false_iff]
  intro hspace
  simp only [isSpace, Bool.or_eq_true, decide_eq_true_eq] at hspace
  rcases hspace with rfl | rfl <;> exact absurd h (by decide)

theorem readKeyPart_plain {key : String} (h : IsPlainKey key) (rest : List Char) :
    readKeyPart (key.toList ++ ' ' :: rest) = some (key, ' ' :: rest) := by
  have htake : (key.toList ++ ' ' :: rest).takeWhile isKeyChar = _ :=
    List.takeWhile_append_of_pos h.2
  have hdrop : (key.toList ++ ' ' :: rest).dropWhile isKeyChar = _ :=
    List.dropWhile_append_of_pos h.2
  have hname := String.ofList_toList (s := key)
  obtain ⟨c, cs, hkey, hc⟩ := h.exists_cons
  rw [hkey] at htake hdrop hname ⊢
  rw [List.cons_append] at htake hdrop ⊢
  rw [readKeyPart, if_pos hc, htake, hdrop]
  simp [isKeyChar, hname]

theorem readKey_plain {key : String} (h : IsPlainKey key) {c : Char} (hspace : isSpace c = false)
    (hdot : c ≠ '.') (rest : List Char) :
    readKey (key.toList ++ ' ' :: c :: rest) = .ok (([], key), c :: rest) := by
  have hskip : skipSpaces (' ' :: c :: rest) = c :: rest := by
    simp [skipSpaces, show isSpace ' ' = true from rfl, hspace]
  obtain ⟨n, hlength⟩ : ∃ n, (key.toList ++ ' ' :: c :: rest).length = n + 1 :=
    ⟨_, by rw [List.length_append, List.length_cons, ← Nat.add_assoc]⟩
  rw [readKey, hlength, readKeyWithin, readKeyPart_plain h]
  simp only [Option.bind_eq_bind, Option.bind_some, hskip]
  split
  · simp_all
  · rfl

/-! ### Forms -/

/-- A list of characters is read as a value wherever it stands, if there is enough room. Only a
quote behind it could still belong to it. -/
structure IsForm (room : Nat) (form : List Char) (value : Data) : Prop where
  read : ∀ {fuel available : Nat} {rest : List Char}, form.length < fuel → room ≤ available →
    rest.head? ≠ some '"' → readValueWithin fuel available (form ++ rest) = .ok (value, rest)
  /-- It does not start with a blank. -/
  lead : ∀ rest, skipSpaces (form ++ rest) = form ++ rest

/-- A value without parts. -/
inductive Leaf
  | text (s : String)
  | bool (b : Bool)

namespace Leaf

/-- The value itself. -/
def data : Leaf → Data
  | .text s => .text s
  | .bool b => .bool b

/-- How it is written. -/
def form : Leaf → List Char
  | .text s => writeText s.toList
  | .bool b => writeBool b

theorem isForm (l : Leaf) : IsForm 0 l.form l.data where
  read {fuel available rest} hfuel _ hrest := by
    obtain ⟨fuel, rfl⟩ : ∃ n, fuel = n + 1 := ⟨fuel - 1, by omega⟩
    cases l with
    | text s =>
      rw [form, data, readValueWithin, readScalar_writeText s.toList rest hrest,
        String.ofList_toList]
      · simp [writeText]
      · simp [writeText]
    | bool b => cases b <;> rfl
  lead rest := by
    cases l with
    | text s => rfl
    | bool b => cases b <;> rfl

end Leaf

/-- A plain key with a value without parts. -/
structure Entry where
  key : String
  leaf : Leaf
  plain : IsPlainKey key

namespace Entry

/-- The field of a table. -/
def field (e : Entry) : String × Data := (e.key, e.leaf.data)

/-- How it is written. -/
def form (e : Entry) : List Char := writePair e.key e.leaf.form

end Entry

/-! ### Tables on one line -/

theorem skipSpaces_space (s : List Char) : skipSpaces (' ' :: s) = skipSpaces s := rfl

variable {fuel room available : Nat} {form : List Char} {key : String} {value : Data}

theorem readKey_writePair (hkey : IsPlainKey key) (form rest : List Char) :
    readKey (writePair key form ++ rest) = .ok (([], key), '=' :: ' ' :: (form ++ rest)) := by
  have hform : writePair key form ++ rest = key.toList ++ ' ' :: '=' :: ' ' :: (form ++ rest) := by
    simp [writePair]
  rw [hform, readKey_plain hkey (by decide) (by decide)]

theorem readPairs_writePair (hkey : IsPlainKey key) (hform : IsForm room form value)
    (hfuel : form.length < fuel) (hroom : room ≤ available) {fields : Fields}
    (hnew : fields.lookup key = none) {c : Char} (hc : c ≠ '"') (rest : List Char) :
    readPairs (fuel + 1) available fields (writePair key form ++ c :: rest) =
      match skipSpaces (c :: rest) with
      | '\x7d' :: rest => .ok (fields ++ [(key, .value value)], rest)
      | ',' :: rest =>
        readPairs fuel available (fields ++ [(key, .value value)]) (skipSpaces rest)
      | _ => .error (.malformed .form) := by
  have hvalue : skipSpaces (' ' :: (form ++ c :: rest)) = form ++ c :: rest :=
    (skipSpaces_space _).trans (hform.lead _)
  rw [readPairs, readKey_writePair hkey]
  simp only [bind, Except.bind, expect, if_pos, orMalformed, hvalue,
    hform.read hfuel hroom (show (c :: rest).head? ≠ some '"' by simpa using hc),
    Fields.assignInLine_new hnew]
  rfl

/-- The fields of a table on one line, as they are written. -/
def lineForms (entries : List Entry) : List Char := [',', ' '].intercalate (entries.map Entry.form)

theorem lineForms_cons_cons (e₁ e₂ : Entry) (entries : List Entry) :
    lineForms (e₁ :: e₂ :: entries) = e₁.form ++ [',', ' '] ++ lineForms (e₂ :: entries) :=
  List.intercalate_cons_cons

theorem exists_cons_of_lineForms (e : Entry) (entries : List Entry) :
    ∃ c cs, lineForms (e :: entries) = c :: cs ∧ isKeyChar c = true := by
  obtain ⟨c, cs, hkey, hc⟩ := e.plain.exists_cons
  obtain ⟨tail, htail⟩ : ∃ tail, lineForms (e :: entries) = e.key.toList ++ tail := by
    cases entries with
    | nil => exact ⟨[' ', '=', ' '] ++ e.leaf.form, by simp [lineForms, Entry.form, writePair]⟩
    | cons e₂ entries =>
      refine ⟨[' ', '=', ' '] ++ e.leaf.form ++ [',', ' '] ++ lineForms (e₂ :: entries), ?_⟩
      simp [lineForms_cons_cons, Entry.form, writePair]
  exact ⟨c, cs ++ tail, by rw [htail, hkey, List.cons_append], hc⟩

theorem skipSpaces_lineForms (e : Entry) (entries : List Entry) (rest : List Char) :
    skipSpaces (lineForms (e :: entries) ++ rest) = lineForms (e :: entries) ++ rest := by
  obtain ⟨c, cs, hforms, hc⟩ := exists_cons_of_lineForms e entries
  simp [hforms, skipSpaces, not_isSpace_of_isKeyChar hc]

theorem lookup_eq_none_of_nodup {before : List (String × Data)} {e : Entry} {entries : List Entry}
    (h : (before.map Prod.fst ++ (e :: entries).map Entry.key).Nodup) :
    (valueFields before).lookup e.key = none := by
  rw [lookup_valueFields, Option.map_eq_none_iff, List.lookup_eq_none_iff]
  intro f hf
  have hne := (List.nodup_append.1 h).2.2 f.1 (List.mem_map_of_mem hf) e.key (by simp)
  simpa using hne.symm

theorem valueFields_concat (before : List (String × Data)) (e : Entry) :
    valueFields (before ++ [e.field]) = valueFields before ++ [(e.key, .value e.leaf.data)] := by
  simp [valueFields, Entry.field]

/-- The written fields are read one after the other up to the closing brace. -/
theorem readPairs_lineForms (e : Entry) (entries : List Entry) {before : List (String × Data)}
    (hdistinct : (before.map Prod.fst ++ (e :: entries).map Entry.key).Nodup)
    (hfuel : (lineForms (e :: entries)).length < fuel) (rest : List Char) :
    readPairs fuel available (valueFields before)
        (lineForms (e :: entries) ++ ' ' :: '\x7d' :: rest) =
      .ok (valueFields (before ++ (e :: entries).map Entry.field), rest) := by
  induction entries generalizing e before fuel with
  | nil =>
    have hform : lineForms [e] = writePair e.key e.leaf.form := List.intercalate_singleton
    obtain ⟨fuel, rfl⟩ : ∃ n, fuel = n + 1 := ⟨fuel - 1, by omega⟩
    have hleaf : e.leaf.form.length < fuel := by
      simp only [hform, writePair, List.length_append, List.length_cons] at hfuel
      omega
    rw [hform, readPairs_writePair e.plain e.leaf.isForm hleaf (Nat.zero_le _)
      (lookup_eq_none_of_nodup hdistinct) (by decide), ← valueFields_concat]
    rfl
  | cons e₂ entries ih =>
    rw [lineForms_cons_cons] at hfuel ⊢
    obtain ⟨fuel, rfl⟩ : ∃ n, fuel = n + 1 := ⟨fuel - 1, by omega⟩
    simp only [Entry.form, writePair, List.length_append, List.length_cons] at hfuel
    have hread : readPairs fuel available (valueFields (before ++ [e.field])) _ = _ :=
      ih e₂ (by simpa [Entry.field] using hdistinct) (by omega)
    rw [Entry.form, List.append_assoc, List.append_assoc, List.cons_append,
      readPairs_writePair e.plain e.leaf.isForm (by omega) (Nat.zero_le _)
      (lookup_eq_none_of_nodup hdistinct) (by decide), ← valueFields_concat]
    change readPairs fuel available (valueFields (before ++ [e.field]))
      (skipSpaces (lineForms (e₂ :: entries) ++ ' ' :: '\x7d' :: rest)) = _
    rw [skipSpaces_lineForms, hread, List.append_assoc]
    rfl

/-- Fields between braces. -/
def tableForm (entries : List Entry) : List Char :=
  '\x7b' :: ' ' :: lineForms entries ++ [' ', '\x7d']

/-- The table of some fields. -/
def tableData (entries : List Entry) : Data := .table (entries.map Entry.field)

theorem isForm_tableForm {entries : List Entry} (hne : entries ≠ [])
    (hdistinct : (entries.map Entry.key).Nodup) :
    IsForm 3 (tableForm entries) (tableData entries) where
  lead _ := rfl
  read {fuel available rest} hfuel hroom _ := by
    obtain ⟨e, entries, rfl⟩ := List.exists_cons_of_ne_nil hne
    obtain ⟨fuel, rfl⟩ : ∃ n, fuel = n + 1 := ⟨fuel - 1, by omega⟩
    have hlength : (lineForms (e :: entries)).length < fuel := by
      simp only [tableForm, List.length_append, List.length_cons] at hfuel
      omega
    have hpairs : readPairs fuel (available - 3) (valueFields []) _ = _ :=
      readPairs_lineForms e entries (by simpa using hdistinct) hlength rest
    have hskip : skipSpaces (' ' :: lineForms (e :: entries) ++ [' ', '\x7d'] ++ rest) =
        lineForms (e :: entries) ++ ' ' :: '\x7d' :: rest := by
      rw [List.append_assoc, List.cons_append, skipSpaces_space]
      exact skipSpaces_lineForms e entries _
    obtain ⟨c, cs, hforms, hc⟩ := exists_cons_of_lineForms e entries
    rw [tableForm, List.cons_append, List.cons_append, readValueWithin, if_neg (by omega), hskip]
    split
    · rename_i hbrace
      rw [hforms] at hbrace
      obtain rfl := (List.cons.inj hbrace).1
      exact absurd hc (by decide)
    · change readPairs fuel (available - 3) [] _ = _ at hpairs
      rw [hpairs]
      simp [bind, Except.bind, pure, Except.pure, tableData]

/-! ### Lists of tables -/

/-- A table as a line of a list. -/
def itemForm (entries : List Entry) : List Char :=
  [' ', ' ', ' ', ' '] ++ tableForm entries ++ [',', '\n']

/-- Tables between brackets, with a line for each. -/
def listForm (rows : List (List Entry)) : List Char :=
  '[' :: '\n' :: rows.flatMap itemForm ++ [']']

/-- The lines of a list are read one after the other up to the closing bracket. -/
theorem readItems_itemForms {rows : List (List Entry)}
    (hrows : ∀ entries ∈ rows, entries ≠ [] ∧ (entries.map Entry.key).Nodup)
    (hfuel : (rows.flatMap itemForm).length < fuel) (hroom : 3 ≤ available) (rest : List Char) :
    readItems fuel available ('\n' :: (rows.flatMap itemForm ++ ']' :: rest)) =
      .ok (rows.map tableData, rest) := by
  induction rows generalizing fuel with
  | nil =>
    obtain ⟨fuel, rfl⟩ : ∃ n, fuel = n + 1 := ⟨fuel - 1, by omega⟩
    rw [readItems]
    rfl
  | cons entries rows ih =>
    obtain ⟨fuel, rfl⟩ : ∃ n, fuel = n + 1 := ⟨fuel - 1, by omega⟩
    obtain ⟨⟨hne, hdistinct⟩, hmore⟩ := List.forall_mem_cons.1 hrows
    simp only [List.flatMap_cons, itemForm, List.length_append, List.length_cons] at hfuel
    have hitems := ih hmore (by simpa using show (rows.flatMap itemForm).length < fuel by omega)
    have hitem : readValueWithin fuel available (tableForm entries ++
        ',' :: '\n' :: (rows.flatMap itemForm ++ ']' :: rest)) = _ :=
      (isForm_tableForm hne hdistinct).read (by omega) hroom (by simp)
    have hform : (entries :: rows).flatMap itemForm ++ ']' :: rest =
        [' ', ' ', ' ', ' '] ++ (tableForm entries ++
          ',' :: '\n' :: (rows.flatMap itemForm ++ ']' :: rest)) := by
      simp [itemForm]
    -- The opening brace tells the item from the closing bracket.
    obtain ⟨s, hbrace⟩ : ∃ s, tableForm entries ++
        ',' :: '\n' :: (rows.flatMap itemForm ++ ']' :: rest) = '\x7b' :: s := ⟨_, rfl⟩
    rw [hbrace] at hitem hform
    have hskip : skipBlanks false ('\n' :: ([' ', ' ', ' ', ' '] ++ '\x7b' :: s)) =
        some ('\x7b' :: s) := rfl
    have hcomma (more : List Char) :
        skipBlanks false (',' :: '\n' :: more) = some (',' :: '\n' :: more) := rfl
    rw [hform, readItems, hskip]
    simp only [orMalformed, bind, Except.bind]
    split
    · rename_i hbracket
      exact absurd (List.cons.inj hbracket).1 (by decide)
    · simp only [hitem, hcomma, hitems]
      rfl

theorem isForm_listForm {rows : List (List Entry)}
    (hrows : ∀ entries ∈ rows, entries ≠ [] ∧ (entries.map Entry.key).Nodup) :
    IsForm 5 (listForm rows) (.list (rows.map tableData)) where
  lead _ := rfl
  read {fuel available rest} hfuel hroom _ := by
    obtain ⟨fuel, rfl⟩ : ∃ n, fuel = n + 1 := ⟨fuel - 1, by omega⟩
    have hlength : (rows.flatMap itemForm).length < fuel := by
      simp only [listForm, List.length_append, List.length_cons] at hfuel
      omega
    have hitems : readItems fuel (available - 2) _ = _ :=
      readItems_itemForms hrows hlength (by omega) rest
    have hform : listForm rows ++ rest =
        '[' :: '\n' :: (rows.flatMap itemForm ++ ']' :: rest) := by
      simp [listForm]
    rw [hform, readValueWithin, if_neg (by omega), hitems]
    rfl

end VendorTree.Toml
