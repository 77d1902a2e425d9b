import VendorTree.Config.Writer
import VendorTree.Proofs.ValueForms

/-!
# Written lines

Reading a document goes from one line to the next. The lines here are those that the writer
produces: headers, lines with a key and its value, and empty lines. Each of them takes the document
in the making from one stage to the next one, and the stages of a whole document follow by
composition.
-/

namespace VendorTree.Toml

/-! ### Stages -/

/-- Reading comes from one stage, with the text that is left there, to another one. Each line has a
character at least, so the bound on the lines is never met if it is above the length of the text. -/
def Leads (p : Progress) (s : List Char) (q : Progress) (t : List Char) : Prop :=
  ∀ lines > s.length, ∃ more > t.length, readLinesWithin lines p s = readLinesWithin more q t

namespace Leads

variable {p q r : Progress} {s t u : List Char}

theorem refl (p : Progress) (s : List Char) : Leads p s p s := fun lines h => ⟨lines, h, rfl⟩

theorem trans (hpq : Leads p s q t) (hqr : Leads q t r u) : Leads p s r u := by
  intro lines h
  obtain ⟨more, hmore, hread⟩ := hpq lines h
  obtain ⟨least, hleast, hread'⟩ := hqr more hmore
  exact ⟨least, hleast, hread.trans hread'⟩

/-- The document at the end of the text is the one that is read. -/
theorem readLines (h : Leads p s q []) : readLinesWithin (s.length + 1) p s = .ok q := by
  obtain ⟨lines, hlines, hread⟩ := h _ (Nat.lt_succ_self _)
  obtain ⟨n, rfl⟩ : ∃ n, lines = n + 1 := ⟨lines - 1, by simp at hlines; omega⟩
  rw [hread]
  rfl

theorem of_step (hlength : t.length < s.length)
    (hstep : ∀ lines, readLinesWithin (lines + 1) p s = readLinesWithin lines q t) :
    Leads p s q t := by
  intro lines h
  obtain ⟨n, rfl⟩ : ∃ n, lines = n + 1 := ⟨lines - 1, by omega⟩
  exact ⟨n, by omega, hstep n⟩

end Leads

/-! ### Lines -/

theorem line_append (s rest : List Char) : Config.line s ++ rest = s ++ '\n' :: rest := by
  simp [Config.line]

theorem length_lt_line_append (s rest : List Char) :
    rest.length < (Config.line s ++ rest).length := by
  simp only [line_append, List.length_append, List.length_cons]
  omega

theorem leads_emptyLine (p : Progress) (rest : List Char) :
    Leads p (Config.line [] ++ rest) p rest :=
  .of_step (length_lt_line_append _ _) fun _ => rfl

/-- The header of the table under `prune`, as the first line. -/
theorem leads_pruneHeader (rest : List Char) :
    Leads ⟨[], []⟩ (Config.line "[prune]".toList ++ rest)
      ⟨[("prune", .table .declared [])], ["prune"]⟩ rest := by
  refine .of_step (length_lt_line_append _ _) fun lines => ?_
  rw [line_append]
  rfl

theorem readLinesWithin_header (lines : Nat) (p : Progress) (s : List Char) :
    readLinesWithin (lines + 1) p ('[' :: s) = (do
      let (p, s) ← readHeader p ('[' :: s)
      readLinesWithin lines p (← endLine s)) := by
  rw [readLinesWithin]
  rfl

/-- The header of the next table under `project` below `prune`. -/
theorem leads_projectHeader {fields fields' : Fields}
    (h : Fields.beginNext ["prune"] "project" fields = .ok fields') (header : List String)
    (rest : List Char) :
    Leads ⟨fields, header⟩ (Config.line "[[prune.project]]".toList ++ rest)
      ⟨fields', ["prune", "project"]⟩ rest := by
  have hform : Config.line "[[prune.project]]".toList ++ rest =
      '[' :: '[' :: ("prune.project]]".toList ++ '\n' :: rest) := by
    simp [Config.line]
  have hskip : skipSpaces ("prune.project]]".toList ++ '\n' :: rest) =
      "prune.project]]".toList ++ '\n' :: rest := rfl
  have hkey : readKey ("prune.project]]".toList ++ '\n' :: rest) =
      .ok ((["prune"], "project"), "]]".toList ++ '\n' :: rest) := rfl
  refine .of_step (length_lt_line_append _ _) fun lines => ?_
  rw [hform, readLinesWithin_header, readHeader, hskip, hkey]
  simp only [bind, Except.bind, orMisfit, h]
  rfl

theorem readLinesWithin_assignment (lines : Nat) (p : Progress) {c : Char}
    (hc : isKeyChar c = true) (s : List Char) :
    readLinesWithin (lines + 1) p (c :: s) = (do
      let (p, s) ← readAssignment p (c :: s)
      readLinesWithin lines p (← endLine s)) := by
  have hskip : skipSpaces (c :: s) = c :: s := by
    simp [skipSpaces, not_isSpace_of_isKeyChar hc]
  rw [readLinesWithin, hskip]
  -- A character of a key is none of the marks that the other kinds of lines start with.
  split <;> simp_all +decide

variable {header : List String} {build : Fields → Fields} {fields : Fields}

/-- A line with a key and its value in the table of a header. -/
theorem leads_assignment (hplace : Fields.IsPlace header build) {key : String} {room : Nat}
    {form : List Char} {value : Data} (hkey : IsPlainKey key) (hform : IsForm room form value)
    (hroom : room ≤ roomForValues) (hnew : fields.lookup key = none) (rest : List Char) :
    Leads ⟨build fields, header⟩ (Config.line (writePair key form) ++ rest)
      ⟨build (fields ++ [(key, .value value)]), header⟩ rest := by
  have hvalue : skipSpaces (' ' :: (form ++ '\n' :: rest)) = form ++ '\n' :: rest :=
    (skipSpaces_space _).trans (hform.lead _)
  have hread : readValue (form ++ '\n' :: rest) = .ok (value, '\n' :: rest) :=
    hform.read (by simp only [List.length_append]; omega) hroom (by simp)
  have hassign : readAssignment ⟨build fields, header⟩ (writePair key form ++ '\n' :: rest) =
      .ok (⟨build (fields ++ [(key, .value value)]), header⟩, '\n' :: rest) := by
    rw [readAssignment, readKey_writePair hkey]
    simp only [bind, Except.bind, expect, if_pos, orMalformed, hvalue, hread,
      hplace.assign_new hnew]
    rfl
  obtain ⟨c, cs, hfirst, hc⟩ := hkey.exists_cons
  obtain ⟨s, hs⟩ : ∃ s, writePair key form ++ '\n' :: rest = c :: s :=
    ⟨cs ++ [' ', '=', ' '] ++ form ++ '\n' :: rest, by simp [writePair, hfirst]⟩
  refine .of_step (length_lt_line_append _ _) fun lines => ?_
  rw [line_append]
  rw [hs] at hassign ⊢
  rw [readLinesWithin_assignment lines _ hc, hassign]
  rfl

/-- A line for each of some entries with different keys. -/
theorem leads_entries (hplace : Fields.IsPlace header build) (entries : List Entry)
    {before : List (String × Data)}
    (hdistinct : (before.map Prod.fst ++ entries.map Entry.key).Nodup) (rest : List Char) :
    Leads ⟨build (valueFields before), header⟩
      (entries.flatMap (fun e => Config.line e.form) ++ rest)
      ⟨build (valueFields (before ++ entries.map Entry.field)), header⟩ rest := by
  induction entries generalizing before with
  | nil => simpa using Leads.refl _ rest
  | cons e entries ih =>
    have hfirst := leads_assignment hplace e.plain e.leaf.isForm (Nat.zero_le _)
      (lookup_eq_none_of_nodup hdistinct) (entries.flatMap (fun e => Config.line e.form) ++ rest)
    have hothers : ((before ++ [e.field]).map Prod.fst ++ entries.map Entry.key).Nodup := by
      simpa [Entry.field] using hdistinct
    have hmore := ih hothers
    rw [← valueFields_concat] at hfirst
    simpa [Entry.form] using hfirst.trans hmore

end VendorTree.Toml
