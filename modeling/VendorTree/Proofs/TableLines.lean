import Mathlib.Data.List.Forall2
import VendorTree.Proofs.EntryPath
import VendorTree.Proofs.ShownTexts

/-!
# Lines of tables

A line that fits into its cell stays one line and loses only the spaces at its ends. The columns of
a table are as wide as the widest of their cells, so a table whose cells are single lines is printed
with one line for each row, in which every cell stands as it is.
-/

namespace VendorTree.Console

/-! ### Lines that fit -/

/-- The text is a single line of characters that a console shows where they stand. The blanks at its
end are spaces, or every character takes a column at least. -/
structure IsLine (s : List Char) : Prop where
  plain : ∀ c ∈ s, endsLine c = false ∧ isControl c = false ∧ c ≠ '\t'
  ending : (∀ c ∈ s.reverse.takeWhile Text.isBlank, c = ' ') ∨ ∀ c ∈ s, 0 < Text.width c

-- the characters of the text are looked at, and not all that there are
instance (s : List Char) : Decidable (IsLine s) :=
  decidable_of_iff ((s.all fun c => !endsLine c && !isControl c && decide (c ≠ '\t')) = true ∧
    (((s.reverse.takeWhile Text.isBlank).all fun c => decide (c = ' ')) = true ∨
      (s.all fun c => decide (0 < Text.width c)) = true))
    ⟨fun h => ⟨by simpa [and_assoc] using h.1, by simpa using h.2⟩,
      fun h => ⟨by simpa [and_assoc] using h.plain, by simpa using h.ending⟩⟩

theorem IsLine.notMem_of_endsLine {s : List Char} (h : IsLine s) {c : Char}
    (hc : endsLine c = true) :
    c ∉ s := by
  intro hmem
  rw [(h.plain c hmem).1] at hc
  exact Bool.noConfusion hc

@[simp] theorem columns_nil : columns [] = 0 := rfl

@[simp] theorem columns_cons (c : Char) (cs : List Char) :
    columns (c :: cs) = Text.width c + columns cs := rfl

@[simp] theorem columns_append (s t : List Char) : columns (s ++ t) = columns s + columns t := by
  induction s with
  | nil => simp
  | cons c cs ih => simp [ih, Nat.add_assoc]

theorem length_le_columns {s : List Char} (h : ∀ c ∈ s, 0 < Text.width c) :
    s.length ≤ columns s := by
  induction s with
  | nil => exact Nat.le_refl 0
  | cons c cs ih =>
    obtain ⟨hc, hcs⟩ := List.forall_mem_cons.1 h
    have hrest := ih hcs
    rw [List.length_cons, columns_cons]
    omega

theorem measureFrom_of_plain {s : List Char} (h : ∀ c ∈ s, endsLine c = false) (column : Nat) :
    measureFrom column s = column + columns s := by
  induction s generalizing column with
  | nil => rfl
  | cons c cs ih =>
    obtain ⟨hc, hcs⟩ := List.forall_mem_cons.1 h
    rw [measureFrom, hc, if_neg Bool.false_ne_true, ih hcs, columns_cons, Nat.add_assoc]

theorem IsLine.measure_eq {s : List Char} (h : IsLine s) : measure s = columns s := by
  rw [measure, measureFrom_of_plain (fun c hc => (h.plain c hc).1), Nat.zero_add]

theorem expandTabs_of_notMem {s : List Char} (h : '\t' ∉ s) (column : Nat) :
    expandTabs column s = s := by
  induction s generalizing column with
  | nil => rfl
  | cons c cs ih =>
    obtain ⟨hc, hcs⟩ := not_or.1 (mt List.mem_cons.2 h)
    rw [expandTabs, if_neg (Ne.symm hc), ih hcs]

theorem pieces_of_notMem {separator : Char} {s : List Char} (h : separator ∉ s) :
    Text.pieces separator s = [s] := by
  have hsplit : ([separator].intercalate [s]).splitOn separator = [s] :=
    List.splitOn_intercalate separator (by simpa using h) (by simp)
  rwa [List.intercalate_singleton, ← pieces_eq_splitOn] at hsplit

/-- Cutting a text takes nothing from it. -/
theorem flatten_cutAtWords (s : List Char) : (cutAtWords s).flatten = s := by
  induction s with
  | nil => rfl
  | cons c cs ih =>
    rw [cutAtWords]
    split
    · rename_i hparts
      rw [hparts] at ih
      split <;> rw [← ih] <;> rfl
    · rw [List.flatten_cons, ih]
      rfl

theorem flatten_spacedWords (line : List Char) : (spacedWords line).flatten = line := by
  have hcut := flatten_cutAtWords line
  unfold spacedWords
  split
  · rename_i hparts
    rw [hparts] at hcut
    split
    · rw [← hcut]
      simp
    · exact hcut
  · exact hcut

theorem columns_dropBlanks_le (word : List Char) :
    columns (word.reverse.dropWhile Text.isBlank).reverse ≤ columns word := by
  have hsplit := congrArg List.reverse (List.takeWhile_append_dropWhile (p := Text.isBlank)
    (l := word.reverse))
  rw [List.reverse_append, List.reverse_reverse] at hsplit
  have hcolumns := congrArg columns hsplit
  rw [columns_append] at hcolumns
  omega

/-- Words that fit into one line stay in it. -/
theorem fillLines_of_fits {width : Nat} {line : List Char} {words : List (List Char)}
    (h : columns (line ++ words.flatten) ≤ width) :
    fillLines width line words = [line ++ words.flatten] := by
  induction words generalizing line with
  | nil => simp [fillLines]
  | cons word words ih =>
    rw [List.flatten_cons, ← List.append_assoc] at h ⊢
    have hshown := columns_dropBlanks_le word
    have hfits : columns line + columns (word.reverse.dropWhile Text.isBlank).reverse ≤ width := by
      simp only [columns_append] at h
      omega
    rw [fillLines, if_pos (.inr hfits), ih h]

theorem trim_append_of_outer {outer : Char → Bool} {s t : List Char} (h : ∀ c ∈ t, outer c = true) :
    Text.trim outer (s ++ t) = Text.trim outer s := by
  have hend (s : List Char) : (s ++ t).reverse.dropWhile outer = s.reverse.dropWhile outer := by
    rw [List.reverse_append, List.dropWhile_append_of_pos fun c hc => h c (List.mem_reverse.1 hc)]
  have hnone : t.dropWhile outer = [] := List.dropWhile_eq_nil_iff.2 h
  rw [Text.trim, Text.trim, List.dropWhile_append]
  split
  · rename_i hblank
    rw [hnone, List.isEmpty_iff.1 hblank]
  · rw [hend]

/-- Where a line fits, what is dropped from its end is a space. -/
theorem IsLine.dropExcessBlanks_eq {line : List Char} (h : IsLine line) {width : Nat}
    (hfits : columns line ≤ width) :
    ∃ spaces, line = dropExcessBlanks width line ++ spaces ∧ ∀ c ∈ spaces, c = ' ' := by
  generalize hdropped : min (line.reverse.takeWhile Text.isBlank).length (line.length - width) = n
  refine ⟨line.drop (line.length - n), ?_, ?_⟩
  · rw [dropExcessBlanks, hdropped, List.take_append_drop]
  · rcases h.ending with hspaces | hwide
    · intro c hc
      have hcounted : (line.reverse.take n).length ≤
          (line.reverse.takeWhile Text.isBlank).length := by
        rw [List.length_take]
        omega
      have hblanks := List.prefix_of_prefix_length_le (List.take_prefix n line.reverse)
        (List.takeWhile_prefix Text.isBlank) hcounted
      rw [← List.mem_reverse, ← List.take_reverse] at hc
      exact hspaces c (hblanks.mem hc)
    · have hlength := length_le_columns hwide
      have hnone : n = 0 := by omega
      simp [hnone]

theorem IsLine.cellLines_eq {s : String} (h : IsLine s.toList) {width : Nat}
    (hfits : columns s.toList ≤ width) (wraps : Bool) :
    cellLines wraps width s = [trimmed s.toList] := by
  have hlines : (if wraps then fillLines width [] (spacedWords s.toList) else [s.toList]) =
      [s.toList] := by
    split
    · rw [fillLines_of_fits] <;> rw [List.nil_append, flatten_spacedWords]
      exact hfits
    · rfl
  obtain ⟨spaces, hsplit, hspaces⟩ := h.dropExcessBlanks_eq hfits
  have hless : columns (dropExcessBlanks width s.toList) ≤ width := by
    have hcolumns := congrArg columns hsplit
    rw [columns_append] at hcolumns
    omega
  have htrimmed : trimmed (dropExcessBlanks width s.toList) = trimmed s.toList := by
    have htrim := @trim_append_of_outer (· = ' ') (dropExcessBlanks width s.toList) spaces
      fun c hc => by simpa using hspaces c hc
    rw [← hsplit] at htrim
    rw [trimmed, trimmed, htrim]
  rw [cellLines, pieces_of_notMem (h.notMem_of_endsLine (by decide)), List.flatMap_singleton,
    expandTabs_of_notMem fun hmem => (h.plain _ hmem).2.2 rfl]
  simp only [hlines, List.map_cons, List.map_nil]
  rw [cutOff, if_pos hless, htrimmed]

/-! ### Rows and columns -/

namespace Table

/-- A cell is a line, and its column is as wide as it. -/
def Fits (column : Column × Nat) (cell : String) : Prop :=
  IsLine cell.toList ∧ Console.columns cell.toList ≤ column.2

theorem rowLines_of_fits {columns : List (Column × Nat)} {cells : List String} (hne : cells ≠ [])
    (h : List.Forall₂ Fits columns cells) :
    rowLines columns cells = ["|".intercalate (cells.map fun cell => trimmed cell.toList)] := by
  have hparts : ((columns.zip cells).map fun x => cellLines x.1.1.wraps x.1.2 x.2) =
      cells.map fun cell => [trimmed cell.toList] := by
    clear hne
    induction h with
    | nil => rfl
    | cons hcell _ ih =>
      rw [List.zip_cons_cons, List.map_cons, List.map_cons, ih, hcell.1.cellLines_eq hcell.2]
  have hheight :
      ((cells.map fun cell => [trimmed cell.toList]).map List.length).foldl max 0 = 1 := by
    obtain ⟨cell, rest, rfl⟩ := List.exists_cons_of_ne_nil hne
    clear hne h hparts
    induction rest with
    | nil => rfl
    | cons _ rest ih => exact ih
  have hrow : ((cells.map fun cell => [trimmed cell.toList]).map fun part =>
      (part[0]?).getD "") = cells.map fun cell => trimmed cell.toList := by
    rw [List.map_map]
    rfl
  unfold rowLines
  dsimp only
  rw [hparts, hheight, List.range_one, List.map_singleton, hrow]

theorem le_foldl_max {ns : List Nat} {n : Nat} (h : n ∈ ns) (least : Nat) :
    n ≤ ns.foldl max least := by
  have hleast : ∀ (ns : List Nat) least, least ≤ ns.foldl max least := by
    intro ns
    induction ns with
    | nil => exact fun least => Nat.le_refl least
    | cons m ns ih => exact fun least => Nat.le_trans (Nat.le_max_left least m) (ih _)
  induction ns generalizing least with
  | nil => cases h
  | cons m ns ih =>
    rcases List.mem_cons.1 h with rfl | h
    · exact Nat.le_trans (Nat.le_max_right least n) (hleast ns _)
    · exact ih h _

/-- The columns of a table are as wide as its cells. -/
theorem fits_measured {t : Table} {texts : List (List String)} {cells : List String}
    (hcells : cells ∈ texts) (hlength : cells.length = t.columns.length)
    (hlines : ∀ cell ∈ cells, IsLine cell.toList) :
    List.Forall₂ Fits (t.measured texts) cells := by
  have hcount : (t.measured texts).length = cells.length := by
    simp [measured, byColumn, hlength]
  refine List.forall₂_iff_get.2 ⟨hcount, fun i _ hi => ⟨hlines _ (List.get_mem cells _), ?_⟩⟩
  have hcell : cells.get ⟨i, hi⟩ ∈ texts.filterMap fun cells => cells[i]? :=
    List.mem_filterMap.2 ⟨cells, hcells, by simp⟩
  rw [← (hlines _ (List.get_mem cells _)).measure_eq]
  simp only [measured, byColumn, List.get_eq_getElem, List.getElem_map, List.getElem_zip,
    List.getElem_range]
  exact le_foldl_max (List.mem_map_of_mem (f := fun cell : String => measure cell.toList)
    (List.mem_cons_of_mem _ hcell)) 0

end Table

/-! ### Tables -/

theorem mapM_of_forall₂ {ε α β : Type} {f : α → Except ε β} {l : List α} {bs : List β}
    (h : List.Forall₂ (fun a b => f a = .ok b) l bs) : l.mapM f = .ok bs := by
  induction h with
  | nil => rfl
  | cons hfirst _ ih =>
    rw [List.mapM_cons, hfirst, ih]
    rfl

/-- A table whose cells are shown as single lines is printed with one line for each row. -/
theorem Table.lines_of_forall₂ {t : Table} {texts : List (List String)} (hne : t.columns ≠ [])
    (hshown : List.Forall₂ (List.Forall₂ fun cell text => render cell = .ok text) t.rows texts)
    (hlength : ∀ cells ∈ texts, cells.length = t.columns.length)
    (hlines : ∀ cells ∈ texts, ∀ cell ∈ cells, IsLine cell.toList) :
    t.lines = .ok (t.title :: "|".intercalate (t.columns.map Column.heading) ::
      texts.map fun cells => "|".intercalate (cells.map fun cell => trimmed cell.toList)) := by
  have htexts : t.rows.mapM (fun cells => cells.mapM render) = .ok texts :=
    mapM_of_forall₂ (hshown.imp fun _ _ => mapM_of_forall₂)
  have hrows : ∀ rows ⊆ texts, rows.flatMap (rowLines (t.measured texts)) =
      rows.map fun cells => "|".intercalate (cells.map fun cell => trimmed cell.toList) := by
    intro rows hrows
    induction rows with
    | nil => rfl
    | cons cells rest ih =>
      obtain ⟨hcells, hrest⟩ := List.cons_subset.1 hrows
      have hsome : cells ≠ [] := by
        rintro rfl
        exact hne (List.length_eq_zero_iff.1 (hlength [] hcells).symm)
      rw [List.flatMap_cons, ih hrest, List.map_cons,
        rowLines_of_fits hsome (fits_measured hcells (hlength cells hcells) (hlines cells hcells))]
      rfl
  have hcells : ∀ cells ∈ t.rows, ∀ cell ∈ cells, Shown cell := fun cells hmem =>
    exists_of_mapM_ok (exists_of_mapM_ok htexts cells hmem).choose_spec
  obtain ⟨lines, hdone⟩ := Table.lines_ok hcells
  obtain ⟨_, hread, _⟩ := exists_of_bind_ok hdone
  rw [Table.lines, hread, htexts, ← hrows texts (List.Subset.refl _)]
  rfl

end VendorTree.Console
