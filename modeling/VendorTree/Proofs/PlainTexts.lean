import VendorTree.Proofs.ShownTexts

/-!
# Plain texts

A text without markup and without control characters is shown as it is, and no other text is: a tag
takes its brackets from what is shown, and a backslash in front of a bracket is taken itself.
-/

namespace VendorTree.Console

/-! ### Texts without markup -/

/-- The text has markup: a tag begins in it, or a backslash stands in front of a bracket. -/
def hasMarkup : List Char → Bool
  | [] => false
  | c :: cs => (tagAt? (c :: cs)).isSome || (c = '\\' && cs.head? = some '[') || hasMarkup cs

theorem hasMarkup_cons_eq_false {c : Char} {cs : List Char} :
    hasMarkup (c :: cs) = false ↔
      tagAt? (c :: cs) = none ∧ (c = '\\' → cs.head? ≠ some '[') ∧ hasMarkup cs = false := by
  simp [hasMarkup, and_assoc]

theorem tagAt?_append {s inner : List Char} (h : tagAt? s = some inner) (t : List Char) :
    tagAt? (s ++ t) = some inner := by
  obtain ⟨c, tag, rest, hinner, rfl, hstarts, htag⟩ := tagAt?_eq_some_iff.1 h
  exact tagAt?_eq_some_iff.2 ⟨c, tag, rest ++ t, hinner, by simp, hstarts, htag⟩

theorem hasMarkup_of_suffix {s t : List Char} (h : hasMarkup s = false) (ht : t <:+ s) :
    hasMarkup t = false := by
  induction s with
  | nil => rwa [List.suffix_nil.1 ht]
  | cons c cs ih =>
    rcases List.suffix_cons_iff.1 ht with rfl | ht
    · exact h
    · exact ih (hasMarkup_cons_eq_false.1 h).2.2 ht

theorem hasMarkup_of_append {s t : List Char} (h : hasMarkup (s ++ t) = false) :
    hasMarkup s = false := by
  induction s with
  | nil => rfl
  | cons c cs ih =>
    rw [List.cons_append] at h
    obtain ⟨htag, hescape, hcs⟩ := hasMarkup_cons_eq_false.1 h
    refine hasMarkup_cons_eq_false.2 ⟨?_, fun hc hhead => hescape hc ?_, ih hcs⟩
    · cases hinner : tagAt? (c :: cs) with
      | none => rfl
      | some inner =>
        have hlonger := tagAt?_append hinner t
        rw [List.cons_append, htag] at hlonger
        cases hlonger
    · rw [List.head?_append, hhead]
      rfl

theorem hasMarkup_of_infix {s t : List Char} (h : hasMarkup s = false) (ht : t <:+: s) :
    hasMarkup t = false := by
  obtain ⟨before, after, rfl⟩ := ht
  rw [List.append_assoc] at h
  exact hasMarkup_of_append (hasMarkup_of_suffix h (List.suffix_append before _))

theorem tagAt?_eq_none_of_hasMarkup {s : List Char} (h : hasMarkup s = false) :
    tagAt? s = none := by
  cases s with
  | nil => rfl
  | cons c cs => exact (hasMarkup_cons_eq_false.1 h).1

theorem piecesAfter_of_hasMarkup {s : List Char} (h : hasMarkup s = false) :
    piecesAfter 0 s = s.map fun c => .text [c] := by
  induction s with
  | nil => rfl
  | cons c cs ih =>
    obtain ⟨-, hescape, hcs⟩ := hasMarkup_cons_eq_false.1 h
    have htag : tagAt? ((c :: cs).drop (backslashes (c :: cs))) = none :=
      tagAt?_eq_none_of_hasMarkup (hasMarkup_of_suffix h (List.drop_suffix _ _))
    rw [piecesAfter]
    simp only [htag]
    rw [if_neg (by simpa using hescape), ih hcs, List.map_cons]

/-! ### What markup takes away -/

/-- How many characters are shown of pieces. -/
def shownLength (pieces : List Piece) : Nat := (pieces.flatMap Piece.shown).length

theorem shownLength_cons (piece : Piece) (rest : List Piece) :
    shownLength (piece :: rest) = piece.shown.length + shownLength rest := by
  simp [shownLength]

theorem length_shown_text_le (chars : List Char) : (Piece.text chars).shown.length ≤ chars.length :=
  List.length_filter_le _ chars

theorem shown_ofTag (inner : List Char) : (Piece.ofTag inner).shown = [] := by
  unfold Piece.ofTag
  dsimp only
  split <;> rfl

/-- Reading a tag, or one that is escaped, takes a character away at least. -/
theorem shownLength_tag_le {c : Char} {cs inner : List Char}
    (htag : tagAt? ((c :: cs).drop (backslashes (c :: cs))) = some inner)
    (hrest : ∀ skipped ≤ cs.length, shownLength (piecesAfter skipped cs) + skipped ≤ cs.length) :
    shownLength (piecesAfter 0 (c :: cs)) ≤ cs.length := by
  obtain ⟨rest, hsplit, -⟩ := eq_of_tagAt? htag
  have hlength := congrArg List.length hsplit
  simp only [List.length_drop, List.length_cons, List.length_append] at hlength
  have hafter := hrest (backslashes (c :: cs) + inner.length + 1) (by omega)
  have hbefore := length_shown_text_le (List.replicate (backslashes (c :: cs) / 2) '\\')
  rw [List.length_replicate] at hbefore
  rw [piecesAfter]
  simp only [htag, shownLength_cons]
  split
  · have hescaped := length_shown_text_le ('[' :: inner ++ [']'])
    simp only [List.length_append, List.length_cons, List.length_nil] at hescaped
    omega
  · rw [shown_ofTag, List.length_nil]
    omega

/-- No more is shown of a text than it has characters behind those that are skipped. -/
theorem shownLength_piecesAfter_le (s : List Char) :
    ∀ skipped ≤ s.length, shownLength (piecesAfter skipped s) + skipped ≤ s.length := by
  induction s with
  | nil =>
    intro skipped hskipped
    rw [Nat.le_zero.1 hskipped]
    exact Nat.le_refl 0
  | cons c cs ih =>
    intro skipped hskipped
    cases skipped with
    | succ skipped =>
      have hrest := ih skipped (Nat.le_of_succ_le_succ hskipped)
      rw [piecesAfter, List.length_cons]
      omega
    | zero =>
      cases htag : tagAt? ((c :: cs).drop (backslashes (c :: cs))) with
      | some inner => exact Nat.le_succ_of_le (shownLength_tag_le htag ih)
      | none =>
        have hrest := ih 0 (Nat.zero_le _)
        have hfirst := length_shown_text_le [c]
        rw [List.length_singleton] at hfirst
        rw [piecesAfter, List.length_cons]
        simp only [htag]
        split
        · omega
        · rw [shownLength_cons]
          omega

/-- A text of which every character is shown has neither markup nor control characters. -/
theorem plain_of_shownLength {s : List Char} (h : shownLength (piecesAfter 0 s) = s.length) :
    hasMarkup s = false ∧ ∀ c ∈ s, isControl c = false := by
  induction s with
  | nil => exact ⟨rfl, by simp⟩
  | cons c cs ih =>
    have hrest := shownLength_piecesAfter_le cs
    rw [List.length_cons] at h
    cases htag : tagAt? ((c :: cs).drop (backslashes (c :: cs))) with
    | some inner =>
      -- the characters of a tag are not shown
      have hless := shownLength_tag_le htag hrest
      omega
    | none =>
      have hcs := hrest 0 (Nat.zero_le _)
      rw [piecesAfter] at h
      simp only [htag] at h
      split at h
      · omega
      · rename_i hescape
        have hfirst := length_shown_text_le [c]
        rw [shownLength_cons] at h
        rw [List.length_singleton] at hfirst
        obtain ⟨hmarkup, hcontrol⟩ := ih (by omega)
        have hc : isControl c = false := by
          by_contra hc
          have hnone : (Piece.text [c]).shown = [] := by simp [Piece.shown, hc]
          rw [hnone, List.length_nil] at h
          omega
        refine ⟨hasMarkup_cons_eq_false.2 ⟨?_, by simpa using hescape, hmarkup⟩,
          List.forall_mem_cons.2 ⟨hc, hcontrol⟩⟩
        -- no tag is here, and one that a backslash hides would have cost a character
        by_cases hslash : c = '\\'
        · rw [hslash]
          rfl
        · have hnone : backslashes (c :: cs) = 0 := by simp [backslashes, hslash]
          rwa [hnone, List.drop_zero] at htag

/-- A text is shown as it is just if it has neither markup nor control characters. -/
theorem render_eq_self_iff {s : String} :
    render s = .ok s ↔ hasMarkup s.toList = false ∧ ∀ c ∈ s.toList, isControl c = false := by
  constructor
  · intro h
    obtain ⟨m, hread, hshown⟩ := exists_of_bind_ok h
    obtain ⟨_, -, htext⟩ := exists_of_bind_ok hshown
    have hall : m.text = s.toList := by
      rw [← Except.ok.inj htext, String.toList_ofList]
    apply plain_of_shownLength
    rw [shownLength, ← text_of_layOut hread, hall]
  · rintro ⟨hmarkup, hcontrol⟩
    have hall : s.toList.filter (fun c => !isControl c) = s.toList :=
      List.filter_eq_self.2 fun c hc => by simp [hcontrol c hc]
    simp only [render, readMarkup, piecesAfter_of_hasMarkup hmarkup, layOut_text, hall]
    exact congrArg Except.ok String.ofList_toList

end VendorTree.Console
