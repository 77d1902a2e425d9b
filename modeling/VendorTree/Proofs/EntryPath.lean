import VendorTree.FileSystem.Snapshot

/-!
# Paths of entries

An entry below a directory is known by the names that lead to it. Written out and read back these
names are the same, so the text of an entry determines its path, its package and its steps.
-/

namespace VendorTree

/-! ### Names and texts -/

theorem pieces_eq_splitOn (c : Char) (s : List Char) : Text.pieces c s = s.splitOn c := by
  induction s with
  | nil => rfl
  | cons d s ih =>
    rw [List.splitOn_cons_eq_if_modifyHead, ← ih]
    by_cases hd : d = c
    · simp [Text.pieces, hd]
    · have hne : Text.pieces c s ≠ [] := ih ▸ List.splitOn_ne_nil c s
      obtain ⟨piece, rest, hs⟩ := List.exists_cons_of_ne_nil hne
      simp [Text.pieces, hd, hs]

theorem mem_intercalate_iff {α : Type} {sep : List α} {parts : List (List α)} {x : α}
    (hx : x ∉ sep) : x ∈ sep.intercalate parts ↔ ∃ part ∈ parts, x ∈ part := by
  induction parts with
  | nil => simp
  | cons part rest ih =>
    cases rest with
    | nil => simp
    | cons next rest =>
      rw [List.intercalate_cons_cons]
      simp [hx, ih]

theorem toList_entryText (names : List String) :
    (entryText names).toList = ['/'].intercalate (names.map String.toList) := by
  simp [entryText]

theorem splitOn_entryText {names : List String} (h : ∀ n ∈ names, IsPathName n) (hne : names ≠ []) :
    ((entryText names).toList.splitOn '/').map String.ofList = names := by
  have hslash : ∀ l ∈ names.map String.toList, '/' ∉ l := by
    intro l hl
    obtain ⟨n, hn, rfl⟩ := List.mem_map.1 hl
    exact (h n hn).2.2
  rw [toList_entryText, List.splitOn_intercalate '/' hslash (by simpa using hne)]
  simp

theorem pathNames_entryText {names : List String} (h : ∀ n ∈ names, IsPathName n) :
    pathNames (entryText names) = names := by
  by_cases hne : names = []
  · subst hne
    decide
  · rw [pathNames, pieces_eq_splitOn, splitOn_entryText h hne]
    exact List.filter_eq_self.2 fun n hn => by simpa using ⟨(h n hn).1, (h n hn).2.1⟩

theorem pathNames_slash (s : String) : pathNames ("/" ++ s) = pathNames s := by
  have hpieces : Text.pieces '/' ("/" ++ s).toList = [] :: Text.pieces '/' s.toList := by
    rw [String.toList_append]
    show Text.pieces '/' ('/' :: s.toList) = _
    rw [Text.pieces, if_pos rfl]
  rw [pathNames, hpieces]
  simp [pathNames]

theorem entryText_injective {a b : List String} (ha : ∀ n ∈ a, IsPathName n)
    (hb : ∀ n ∈ b, IsPathName n) (h : entryText a = entryText b) : a = b := by
  rw [← pathNames_entryText ha, h, pathNames_entryText hb]

theorem anchor_of_head_ne {s : List Char} (h : s.head? ≠ some '/') :
    Anchor.ofChars s = .relative := by
  unfold Anchor.ofChars
  split <;> simp_all

theorem head_entryText_ne {names : List String} (h : ∀ n ∈ names, IsPathName n) :
    (entryText names).toList.head? ≠ some '/' := by
  rw [toList_entryText]
  cases names with
  | nil => simp
  | cons n rest =>
    obtain ⟨hne, -, hslash⟩ := h n (by simp)
    cases hn : n.toList with
    | nil => exact absurd (String.toList_injective (hn.trans String.toList_empty.symm)) hne
    | cons c cs =>
      have hc : c ≠ '/' := by
        rintro rfl
        simp [hn] at hslash
      cases rest <;> simp [hn, hc]

/-- The text of a directory as a package has it: a dot where no names are left. -/
def directoryText (names : List String) : String := if names = [] then "." else entryText names

theorem ofString_entryText {names : List String} (h : ∀ n ∈ names, IsPathName n) :
    Path.ofString (entryText names) = ⟨.relative, names, h⟩ := by
  unfold Path.ofString
  congr 1
  · exact anchor_of_head_ne (head_entryText_ne h)
  · exact pathNames_entryText h

theorem text_of_relative {names : List String} (h : ∀ n ∈ names, IsPathName n) :
    (⟨.relative, names, h⟩ : Path).text = directoryText names := by
  by_cases hne : names = []
  · simp [Path.text, directoryText, hne]
  · simp only [Path.text, directoryText, hne, and_false, if_false]
    rw [Anchor.chars, List.nil_append, ← toList_entryText, String.ofList_toList]

theorem text_ofString_entryText {names : List String} (h : ∀ n ∈ names, IsPathName n) :
    (Path.ofString (entryText names)).text = directoryText names := by
  rw [ofString_entryText h, text_of_relative h]

theorem name_ofString_entryText {names : List String} (h : ∀ n ∈ names, IsPathName n) :
    (Path.ofString (entryText names)).name = names.getLast?.getD "" := by
  rw [ofString_entryText h, Path.name]

theorem packageOf_entryText {names : List String} (h : ∀ n ∈ names, IsPathName n) :
    packageOf (entryText names) = directoryText names.dropLast := by
  rw [packageOf, ofString_entryText h]
  exact text_of_relative fun n hn => h n (List.dropLast_subset _ hn)

/-! ### Texts of paths -/

theorem Anchor.ofChars_append {a : Anchor} {s : List Char} (h : s.head? ≠ some '/') :
    Anchor.ofChars (a.chars ++ s) = a := by
  cases a with
  | relative => exact anchor_of_head_ne h
  | root | doubleRoot =>
    cases s with
    | nil => rfl
    | cons c cs =>
      have hc : c ≠ '/' := by simpa using h
      simp [chars, ofChars, hc]

theorem pathNames_append_chars (a : Anchor) (s : String) :
    pathNames (String.ofList (a.chars ++ s.toList)) = pathNames s := by
  have hslash (t : String) : String.ofList ('/' :: t.toList) = "/" ++ t := by
    rw [← String.toList_inj, String.toList_ofList, String.toList_append]
    rfl
  cases a with
  | relative => rw [Anchor.chars, List.nil_append, String.ofList_toList]
  | root => exact (congrArg pathNames (hslash s)).trans (pathNames_slash s)
  | doubleRoot =>
    have hdouble : String.ofList (Anchor.doubleRoot.chars ++ s.toList) = "/" ++ ("/" ++ s) := by
      rw [← hslash, ← hslash, String.toList_ofList]
      rfl
    rw [hdouble, pathNames_slash, pathNames_slash]

theorem Path.ofString_text (p : Path) : ofString p.text = p := by
  obtain ⟨anchor, names, hnamed⟩ := p
  by_cases hdot : anchor = .relative ∧ names = []
  · obtain ⟨rfl, rfl⟩ := hdot
    have hnone : pathNames "." = [] := by decide
    simp [ofString, text, Anchor.ofChars, hnone]
  · have htext : (⟨anchor, names, hnamed⟩ : Path).text =
        String.ofList (anchor.chars ++ (entryText names).toList) := by
      rw [text, if_neg hdot, toList_entryText]
    rw [htext]
    unfold ofString
    congr 1
    · rw [String.toList_ofList, Anchor.ofChars_append (head_entryText_ne hnamed)]
    · rw [pathNames_append_chars, pathNames_entryText hnamed]

theorem Path.text_injective : Function.Injective Path.text :=
  Function.LeftInverse.injective ofString_text

/-! ### Paths below a directory -/

/-- The path of an entry below a directory, by the names that lead to it. -/
def Path.below (root : Path) (names : List String) : Path := root.join (entryText names)

namespace Path

theorem isBelow_iff {path p : Path} : path.isBelow p = true ↔
    path.anchor = p.anchor ∧ p.names <+: path.names ∧ p.names.length < path.names.length := by
  simp [isBelow, and_assoc]

theorem names_below (root : Path) {names : List String} (h : ∀ n ∈ names, IsPathName n) :
    (root.below names).names = root.names ++ names := by
  show root.names ++ pathNames (entryText names) = root.names ++ names
  rw [pathNames_entryText h]

theorem below_nil (root : Path) : root.below [] = root := by
  have hnil : pathNames (entryText []) = [] := pathNames_entryText (by simp)
  simp [below, join, hnil]

theorem join_below {root : Path} {names : List String} {x : String}
    (h : ∀ n ∈ names ++ [x], IsPathName n) :
    (root.below names).join x = root.below (names ++ [x]) := by
  have hlast : pathNames x = [x] := by
    have hsingle := @pathNames_entryText [x] fun n hn => h n (List.mem_append_right _ hn)
    rwa [entryText, String.intercalate_singleton] at hsingle
  have hinner := pathNames_entryText fun n hn => h n (List.mem_append_left [x] hn)
  simp only [below, join, pathNames_entryText h, hinner, hlast, List.append_assoc]

theorem map_ofPiece {names : List String} (h : ∀ n ∈ names, IsPathName n ∧ n ≠ "..") :
    names.map Step.ofPiece = names.map Step.enter := by
  refine List.map_congr_left fun n hn => ?_
  obtain ⟨⟨hempty, hdot, -⟩, hup⟩ := h n hn
  simp [Step.ofPiece, hempty, hdot, hup]

theorem steps_below (root : Path) {names : List String}
    (h : ∀ n ∈ names, IsPathName n ∧ n ≠ "..") :
    (root.below names).steps = root.steps ++ names.map Step.enter := by
  rw [steps, names_below root fun n hn => (h n hn).1, List.map_append, map_ofPiece h]
  rfl

theorem mem_text_iff {p : Path} {c : Char} (hslash : c ≠ '/') (hdot : c ≠ '.') :
    c ∈ p.text.toList ↔ ∃ n ∈ p.names, c ∈ n.toList := by
  unfold text
  split
  · rename_i h
    simp [h.2, hdot]
  · have hanchor : c ∉ p.anchor.chars := by
      cases p.anchor <;> simp [Anchor.chars, hslash]
    rw [String.toList_ofList, List.mem_append, mem_intercalate_iff (by simpa using hslash)]
    simp only [hanchor, false_or, List.mem_map]
    constructor
    · rintro ⟨_, ⟨n, hn, rfl⟩, hc⟩
      exact ⟨n, hn, hc⟩
    · rintro ⟨n, hn, hc⟩
      exact ⟨n.toList, ⟨n, hn, rfl⟩, hc⟩

end Path

end VendorTree
