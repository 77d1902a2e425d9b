import VendorTree.Proofs.Messages

/-!
# Texts with markup

A text is shown if its markup is right. Its tags are left out then, and no tag that begins in front
of a text without brackets swallows it. A table has lines just if all its cells are shown.
-/

namespace VendorTree.Console

/-- The markup of a text is right, so that a console shows it. -/
def Shown (markup : String) : Prop := ∃ text, render markup = .ok text

/-! ### Tags -/

theorem tagAt?_eq_some_iff {s inner : List Char} :
    tagAt? s = some inner ↔ ∃ c tag rest, inner = c :: tag ∧ s = '[' :: c :: (tag ++ ']' :: rest) ∧
      startsTag c = true ∧ ∀ d ∈ tag, d ≠ '[' ∧ d ≠ ']' := by
  constructor
  · intro h
    unfold tagAt? at h
    split at h
    · rename_i c cs
      generalize htag : cs.takeWhile (fun d => d ≠ '[' && d ≠ ']') = tag at h
      simp only at h
      split at h
      · rename_i hends
        rw [Bool.and_eq_true, decide_eq_true_eq] at hends
        obtain ⟨rest, hrest⟩ := List.head?_eq_some_iff.1 hends.2
        have hsplit := List.prefix_iff_eq_append.1 (htag ▸ List.takeWhile_prefix _ : tag <+: cs)
        rw [hrest] at hsplit
        refine ⟨c, tag, rest, (Option.some.inj h).symm, by rw [hsplit], hends.1, fun d hd => ?_⟩
        have hinside := List.mem_takeWhile_imp (htag ▸ hd)
        rwa [Bool.and_eq_true, decide_eq_true_eq, decide_eq_true_eq] at hinside
      · cases h
    · cases h
  · rintro ⟨c, tag, rest, rfl, rfl, hstarts, htag⟩
    have hinner : (tag ++ ']' :: rest).takeWhile (fun d => d ≠ '[' && d ≠ ']') = tag := by
      rw [List.takeWhile_append_of_pos fun d hd => by simpa using htag d hd]
      simp
    simp only [tagAt?, hinner, hstarts, List.drop_left, List.head?_cons, decide_true, Bool.and_self,
      if_true]

theorem eq_of_tagAt? {s inner : List Char} (h : tagAt? s = some inner) :
    ∃ rest, s = '[' :: (inner ++ ']' :: rest) ∧ '[' ∉ inner := by
  obtain ⟨c, tag, rest, rfl, rfl, hstarts, htag⟩ := tagAt?_eq_some_iff.1 h
  refine ⟨rest, rfl, fun hopen => ?_⟩
  rcases List.mem_cons.1 hopen with rfl | hopen
  · exact absurd hstarts (by decide)
  · exact (htag _ hopen).1 rfl

theorem tag_length_le {s inner mid rest : List Char} (hne : s ≠ []) (hclose : ']' ∉ mid)
    (h : tagAt? (s ++ (mid ++ '[' :: rest)) = some inner) : inner.length + 2 ≤ s.length := by
  obtain ⟨rest', hsplit, hopen⟩ := eq_of_tagAt? h
  by_contra hlong
  have hwhole : s <+: '[' :: inner ++ ']' :: rest' := ⟨mid ++ '[' :: rest, hsplit⟩
  have hprefix : s <+: '[' :: inner :=
    List.prefix_of_prefix_length_le hwhole (List.prefix_append _ _) (by simp; omega)
  obtain ⟨x, hx⟩ := hprefix
  have hmid : mid ++ '[' :: rest = x ++ ']' :: rest' := by
    rw [← List.cons_append, ← hx, List.append_assoc] at hsplit
    exact List.append_cancel_left hsplit
  have hxopen : '[' ∉ x := by
    obtain ⟨c, cs, rfl⟩ := List.exists_cons_of_ne_nil hne
    obtain ⟨-, rfl⟩ := List.cons.inj hx
    exact fun hm => hopen (List.mem_append_right _ hm)
  rcases List.append_eq_append_iff.1 hmid with ⟨as, rfl, has⟩ | ⟨as, rfl, has⟩
  · cases as with
    | nil => cases (List.cons.inj has).1
    | cons a as =>
      obtain ⟨rfl, -⟩ := List.cons.inj has
      exact hxopen (by simp)
  · cases as with
    | nil => cases (List.cons.inj has).1
    | cons a as =>
      obtain ⟨rfl, -⟩ := List.cons.inj has
      exact hclose (by simp)

/-- What a piece adds to the shown text. -/
def Piece.shown : Piece → List Char
  | .text chars => chars.filter fun c => !isControl c
  | _ => []

theorem shown_text {s : List Char} (h : ∀ c ∈ s, isControl c = false) :
    (s.map fun c => Piece.text [c]).flatMap Piece.shown = s := by
  induction s with
  | nil => rfl
  | cons c cs ih =>
    have hc := h c List.mem_cons_self
    rw [List.map_cons, List.flatMap_cons, ih fun d hd => h d (List.mem_cons_of_mem c hd)]
    simp [Piece.shown, hc]

theorem exists_of_bind_ok {ε α β : Type} {x : Except ε α} {f : α → Except ε β} {b : β}
    (h : x >>= f = .ok b) : ∃ a, x = .ok a ∧ f a = .ok b := by
  cases x with
  | error e => cases h
  | ok a => exact ⟨a, rfl, h⟩

/-- The tags are left out of the text that is shown, and all else is in it. -/
theorem text_of_layOut {position : Nat} {opened : List OpenTag} {pieces : List Piece} {m : Marked}
    (h : layOut position opened pieces = .ok m) : m.text = pieces.flatMap Piece.shown := by
  induction pieces generalizing position opened m with
  | nil =>
    obtain rfl := Except.ok.inj h
    rfl
  | cons piece rest ih =>
    cases piece with
    | text chars =>
      obtain ⟨m', hrest, h⟩ := exists_of_bind_ok h
      obtain rfl := Except.ok.inj h
      rw [List.flatMap_cons, ← ih hrest]
      rfl
    | opening name argument =>
      obtain ⟨name, -, hrest⟩ := exists_of_bind_ok h
      exact ih hrest
    | closing name =>
      have hclosed : ∀ (t : OpenTag) (opened : List OpenTag), (do
          let spans ← t.close position
          let m ← layOut position opened rest
          return { m with spans := spans ++ m.spans }) = Except.ok m →
            m.text = rest.flatMap Piece.shown := by
        intro t opened h
        obtain ⟨spans, -, h⟩ := exists_of_bind_ok h
        obtain ⟨m', hrest, h⟩ := exists_of_bind_ok h
        obtain rfl := Except.ok.inj h
        show m'.text = _
        exact ih hrest
      rw [layOut] at h
      -- the tag names nothing, or a style that can be told
      split at h
      all_goals
        obtain ⟨name, -, h⟩ := exists_of_bind_ok h
        dsimp only at h
        split at h
        · cases h
        · exact hclosed _ _ h

theorem backslashes_append {s t : List Char} (h : t.head? ≠ some '\\') :
    backslashes (s ++ t) = backslashes s := by
  induction s with
  | nil =>
    cases t with
    | nil => rfl
    | cons c cs =>
      have hc : c ≠ '\\' := fun hc => h (congrArg some hc)
      simp [backslashes, hc]
  | cons c cs ih =>
    unfold backslashes at ih ⊢
    rw [List.cons_append, List.takeWhile_cons, List.takeWhile_cons]
    split
    · rw [List.length_cons, List.length_cons, ih]
    · rfl

theorem exists_piecesAfter_eq {s mid : List Char} (hopen : '[' ∉ mid) (hclose : ']' ∉ mid)
    (hescape : '\\' ∉ mid) (hne : mid ≠ []) (rest : List Char) {skipped : Nat}
    (hskipped : skipped ≤ s.length) :
    ∃ before after, piecesAfter skipped (s ++ (mid ++ '[' :: rest)) =
      before ++ mid.map (fun c => .text [c]) ++ after := by
  induction s generalizing skipped with
  | nil =>
    obtain rfl : skipped = 0 := Nat.le_zero.1 hskipped
    refine ⟨[], piecesAfter 0 ('[' :: rest), ?_⟩
    exact piecesAfter_append hopen (fun hlast => hescape (List.mem_of_getLast? hlast)) _
  | cons c cs ih =>
    -- what is read at the first character is put in front of the pieces that follow
    have hlater : ∀ {skipped}, skipped ≤ cs.length → ∀ pieces, ∃ before after,
        pieces ++ piecesAfter skipped (cs ++ (mid ++ '[' :: rest)) =
          before ++ mid.map (fun c => .text [c]) ++ after := by
      intro skipped hle pieces
      obtain ⟨before, after, hpieces⟩ := ih hle
      exact ⟨pieces ++ before, after, by rw [hpieces]; simp⟩
    cases skipped with
    | succ skipped => exact hlater (Nat.le_of_succ_le_succ hskipped) []
    | zero =>
      have hhead : (mid ++ '[' :: rest).head? ≠ some '\\' := by
        obtain ⟨d, ds, rfl⟩ := List.exists_cons_of_ne_nil hne
        exact fun hd => hescape (Option.some.inj hd ▸ List.mem_cons_self)
      have hcount : backslashes (c :: (cs ++ (mid ++ '[' :: rest))) = backslashes (c :: cs) := by
        rw [← List.cons_append, backslashes_append hhead]
      have hle : backslashes (c :: cs) ≤ (c :: cs).length := (List.takeWhile_sublist _).length_le
      rw [List.cons_append, piecesAfter]
      simp only [hcount]
      rw [← List.cons_append, List.drop_append_of_le_length hle]
      cases htag : tagAt? ((c :: cs).drop (backslashes (c :: cs)) ++ (mid ++ '[' :: rest)) with
      | none =>
        simp only
        split
        · exact hlater (Nat.zero_le _) []
        · exact hlater (Nat.zero_le _) [_]
      | some inner =>
        -- a tag begins with a bracket, so it begins before `mid`; and it ends there, for `mid`
        -- closes none
        have hinside : (c :: cs).drop (backslashes (c :: cs)) ≠ [] := by
          intro hnil
          rw [hnil, List.nil_append] at htag
          obtain ⟨rest', hstart, -⟩ := eq_of_tagAt? htag
          obtain ⟨d, ds, rfl⟩ := List.exists_cons_of_ne_nil hne
          exact hopen ((List.cons.inj hstart).1 ▸ List.mem_cons_self)
        have hlength := tag_length_le hinside hclose htag
        rw [List.length_drop, List.length_cons] at hlength
        exact hlater (by omega) [_, _]

/-- A character that is shown as it is where no tag is. -/
def isShownAsIs (c : Char) : Bool := c ≠ '[' && c ≠ ']' && c ≠ '\\' && !isControl c

/-- A text without brackets and backslashes that stands in front of a bracket is shown, whatever
markup is in front of it: no tag that begins before it can end behind it. -/
theorem isInfix_of_render {markup text : String} {s mid rest : List Char}
    (h : render markup = .ok text) (hmarkup : markup.toList = s ++ (mid ++ '[' :: rest))
    (hne : mid ≠ []) (hmid : mid.all isShownAsIs = true) : mid <:+: text.toList := by
  have hchar : ∀ c ∈ mid, (c ≠ '[' ∧ c ≠ ']' ∧ c ≠ '\\') ∧ isControl c = false := by
    intro c hc
    have hshown := List.all_eq_true.1 hmid c hc
    simpa [isShownAsIs, and_assoc] using hshown
  obtain ⟨before, after, hpieces⟩ := exists_piecesAfter_eq (fun hm => (hchar _ hm).1.1 rfl)
    (fun hm => (hchar _ hm).1.2.1 rfl) (fun hm => (hchar _ hm).1.2.2 rfl) hne rest
      (Nat.zero_le s.length)
  obtain ⟨m, hread, hshown⟩ := exists_of_bind_ok h
  obtain ⟨_, -, htext⟩ := exists_of_bind_ok hshown
  obtain rfl := Except.ok.inj htext
  have hlaid := text_of_layOut hread
  rw [hmarkup, hpieces, List.flatMap_append, List.flatMap_append,
    shown_text fun c hc => (hchar c hc).2] at hlaid
  rw [String.toList_ofList, hlaid]
  exact ⟨_, _, rfl⟩

/-! ### Tables -/

theorem exists_of_mapM_ok {ε α β : Type} {f : α → Except ε β} {l : List α} {bs : List β}
    (h : l.mapM f = .ok bs) : ∀ a ∈ l, ∃ b, f a = .ok b := by
  induction l generalizing bs with
  | nil => simp
  | cons a rest ih =>
    rw [List.mapM_cons] at h
    obtain ⟨b, hfirst, h⟩ := exists_of_bind_ok h
    obtain ⟨bs, hrest, -⟩ := exists_of_bind_ok h
    exact List.forall_mem_cons.2 ⟨⟨b, hfirst⟩, ih hrest⟩

theorem Table.lines_ok_iff {t : Table} :
    (∃ lines, t.lines = .ok lines) ↔ ∀ cells ∈ t.rows, ∀ cell ∈ cells, Shown cell := by
  refine ⟨fun ⟨lines, hlines⟩ => ?_, Table.lines_ok⟩
  obtain ⟨_, -, hlines⟩ := exists_of_bind_ok hlines
  obtain ⟨texts, htexts, -⟩ := exists_of_bind_ok hlines
  intro cells hcells
  obtain ⟨row, hrow⟩ := exists_of_mapM_ok htexts cells hcells
  exact exists_of_mapM_ok hrow

end VendorTree.Console
