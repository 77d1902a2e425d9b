import Mathlib.Data.List.TakeWhile
import VendorTree.Console.Basic
import VendorTree.Proofs.ActionSteps

/-!
# Messages

What a message says stands between a tag with the name of its style and a closing tag, or behind
them. Without brackets, and without backslashes between the tags, it is read and shown as it is,
less its control characters. A table is printed if its cells are shown.
-/

namespace VendorTree.Console

/-! ### Pieces -/

section Pieces

variable {s : List Char} (hopen : '[' ∉ s) (hlast : s.getLast? ≠ some '\\')

include hopen hlast

theorem tagAt?_drop_backslashes (hne : s ≠ []) (rest : List Char) :
    tagAt? ((s ++ rest).drop (backslashes (s ++ rest))) = none := by
  induction s with
  | nil => exact absurd rfl hne
  | cons c cs ih =>
    by_cases hc : c = '\\'
    · have hcs : cs ≠ [] := by
        rintro rfl
        exact hlast (congrArg some hc)
      have hdrop : backslashes (c :: (cs ++ rest)) = backslashes (cs ++ rest) + 1 := by
        simp [backslashes, hc]
      rw [List.cons_append, hdrop, List.drop_succ_cons]
      refine ih (fun hm => hopen (List.mem_cons_of_mem _ hm)) ?_ hcs
      rwa [List.getLast?_cons_of_ne_nil hcs] at hlast
    · have hnone : backslashes (c :: (cs ++ rest)) = 0 := by simp [backslashes, hc]
      rw [List.cons_append, hnone, List.drop_zero]
      unfold tagAt?
      split
      · rename_i heq
        exact absurd (List.cons.inj heq).1 fun hbracket => hopen (hbracket ▸ List.mem_cons_self)
      · rfl

/-- In front of any text, one that has no bracket and does not end with a backslash is read as it
is. -/
theorem piecesAfter_append (rest : List Char) :
    piecesAfter 0 (s ++ rest) = s.map (fun c => .text [c]) ++ piecesAfter 0 rest := by
  induction s with
  | nil => rfl
  | cons c cs ih =>
    have htag := tagAt?_drop_backslashes hopen hlast (by simp) rest
    have hescape : c = '\\' → (cs ++ rest).head? ≠ some '[' := by
      intro hc hhead
      cases cs with
      | nil => exact hlast (congrArg some hc)
      | cons d ds =>
        obtain rfl : d = '[' := Option.some.inj hhead
        exact hopen (by simp)
    have hcs : piecesAfter 0 (cs ++ rest) = cs.map (fun c => .text [c]) ++ piecesAfter 0 rest := by
      refine ih (fun hm => hopen (List.mem_cons_of_mem _ hm)) fun hcs => hlast ?_
      cases cs with
      | nil => cases hcs
      | cons d ds => exact hcs
    rw [List.cons_append] at htag ⊢
    rw [piecesAfter]
    simp only [htag]
    rw [if_neg (by simpa using hescape), hcs]
    rfl

end Pieces

theorem piecesAfter_skip (s rest : List Char) :
    piecesAfter s.length (s ++ rest) = piecesAfter 0 rest := by
  induction s with
  | nil => rfl
  | cons c cs ih => exact ih

/-- The name of a style that can be told, in small letters, which stands for itself in a tag. -/
def IsTagName (name : String) : Prop :=
  name ≠ "" ∧ (∀ c ∈ name.toList, c.isLower = true) ∧
    (styleName name.toList).toOption = some name ∧ (Style.ofText name.toList).toOption.isSome = true

instance (name : String) : Decidable (IsTagName name) :=
  @instDecidableAnd _ _ _ (@instDecidableAnd _ _ (List.decidableBAll _ _) _)

theorem ne_of_isLower {c d : Char} (h : c.isLower = true) (hd : d.isLower = false) : c ≠ d := by
  rintro rfl
  rw [h] at hd
  exact Bool.noConfusion hd

section Tags

variable {name : List Char} (hne : name ≠ []) (h : ∀ c ∈ name, c.isLower = true)

include hne h

theorem tagAt?_letters (rest : List Char) :
    tagAt? ('[' :: (name ++ ']' :: rest)) = some name := by
  obtain ⟨c, cs, rfl⟩ := List.exists_cons_of_ne_nil hne
  have hinner : (cs ++ ']' :: rest).takeWhile (fun d => d ≠ '[' && d ≠ ']') = cs := by
    rw [List.takeWhile_append_of_pos fun d hd => ?_]
    · simp
    · have hlower := h d (List.mem_cons_of_mem c hd)
      simp [ne_of_isLower hlower (d := '[') rfl, ne_of_isLower hlower (d := ']') rfl]
  have hstarts : startsTag c = true := by
    have hlower : (decide ('a' ≤ c) && decide (c ≤ 'z')) = true := h c List.mem_cons_self
    have hletter : 'a' ≤ c ∧ c ≤ 'z' := by simpa using hlower
    simp [startsTag, hletter]
  simp only [List.cons_append, tagAt?, hinner, hstarts, Bool.true_and, List.drop_left,
    List.head?_cons, decide_true, if_true]

theorem ofTag_letters : Piece.ofTag name = .opening name none := by
  have hequals : '=' ∉ name := fun hm => ne_of_isLower (h _ hm) (d := '=') rfl rfl
  have hname : name.takeWhile (· ≠ '=') = name :=
    List.takeWhile_eq_self_iff.2 fun d hd => by simpa using ne_of_isLower (h d hd) (d := '=') rfl
  obtain ⟨c, cs, rfl⟩ := List.exists_cons_of_ne_nil hne
  have hslash : c ≠ '/' := ne_of_isLower (h c List.mem_cons_self) rfl
  simp only [Piece.ofTag, hname, if_neg hequals]
  split
  · rename_i hclosing
    exact absurd (List.cons.inj hclosing).1 hslash
  · rfl

theorem piecesAfter_tag (rest : List Char) : piecesAfter 0 ('[' :: (name ++ ']' :: rest)) =
    .text [] :: .opening name none :: piecesAfter 0 rest := by
  have hnone : ∀ s, backslashes ('[' :: s) = 0 := fun s => by simp [backslashes]
  have hskip := piecesAfter_skip (name ++ [']']) rest
  rw [List.append_assoc, List.singleton_append, List.length_append, List.length_singleton] at hskip
  rw [piecesAfter]
  simp [hnone, tagAt?_letters hne h rest, ofTag_letters hne h, hskip]

end Tags

/-! ### Shown texts -/

theorem layOut_append (position : Nat) (opened : List OpenTag) (s : List Char) (rest : List Piece)
    {m : Marked}
    (h : layOut (position + (s.filter fun c => !isControl c).length) opened rest = .ok m) :
    layOut position opened (s.map (fun c => .text [c]) ++ rest) =
      .ok { m with text := s.filter (fun c => !isControl c) ++ m.text } := by
  induction s generalizing position with
  | nil => simpa using h
  | cons c cs ih =>
    have hrest := ih (position + ([c].filter fun c => !isControl c).length) (by
      rw [← h, List.filter_cons]
      by_cases hc : isControl c <;> simp [hc]
      congr 1
      omega)
    simp only [List.map_cons, List.cons_append, layOut, hrest]
    by_cases hc : isControl c <;> simp [hc, bind, Except.bind, pure, Except.pure]

theorem layOut_closing {name : String} {stop : Nat} (t : List Char)
    (hstyle : (OpenTag.mk name none 0).isHandler = false) :
    layOut stop [⟨name, none, 0⟩] (.text [] :: .closing [] :: t.map fun c => .text [c]) =
      .ok ⟨t.filter fun c => !isControl c, [⟨0, stop, name.toList⟩]⟩ := by
  simp [layOut, layOut_text, OpenTag.take?, OpenTag.close, hstyle, OpenTag.span,
    OpenTag.style, bind, Except.bind, pure, Except.pure]

/-- The style covers all of the text between its tags. -/
theorem layOut_styled {name : String} {tag s : List Char} (t : List Char)
    (hname : styleName tag = .ok name) (hstyle : (OpenTag.mk name none 0).isHandler = false) :
    layOut 0 [] (.text [] :: .opening tag none :: (s.map (fun c => .text [c]) ++
      .text [] :: .closing [] :: t.map fun c => .text [c])) =
    .ok ⟨(s ++ t).filter fun c => !isControl c,
      [⟨0, (s.filter fun c => !isControl c).length, name.toList⟩]⟩ := by
  have hlaid := layOut_append 0 [⟨name, none, 0⟩] s _ (layOut_closing t hstyle)
  have htag : orComponent (styleName tag) = .ok name := by
    rw [hname]
    rfl
  simp only [layOut, htag, List.filter_nil, List.length_nil, Nat.add_zero, Nat.zero_add, bind,
    Except.bind, pure, Except.pure, hlaid, List.filter_append, List.nil_append]

theorem forM_ok {ε α : Type} {f : α → Except ε Unit} {l : List α} (h : ∀ a ∈ l, f a = .ok ()) :
    l.forM f = .ok () := by
  induction l with
  | nil => rfl
  | cons a rest ih =>
    have hrest := ih fun b hb => h b (List.mem_cons_of_mem a hb)
    show f a >>= (fun _ => rest.forM f) = .ok ()
    rw [h a List.mem_cons_self]
    exact hrest

theorem shown_of_styles {m : Marked}
    (h : ∀ s ∈ m.spans, ∃ style, Style.ofText s.style = .ok style) :
    m.shown = .ok (String.ofList m.text) := by
  have htold := forM_ok (f := fun s : Span => (orComponent (Style.ofText s.style)).map fun _ => ())
    (l := m.spans.filter m.needs) fun s hs => ?_
  · rw [Marked.shown, htold]
    rfl
  · obtain ⟨style, hstyle⟩ := h s (List.mem_filter.1 hs).1
    rw [hstyle]
    rfl

/-- A message with a part in a style and a part without tags is shown as it is. -/
theorem render_styled_of_pieces (name : String) {m t : String} (hname : IsTagName name)
    (hopen : '[' ∉ m.toList) (hlast : m.toList.getLast? ≠ some '\\')
    (hplain : piecesAfter 0 t.toList = t.toList.map fun c => .text [c]) :
    render ("[" ++ name ++ "]" ++ m ++ "[/]" ++ t) =
      .ok (String.ofList ((m.toList ++ t.toList).filter fun c => !isControl c)) := by
  obtain ⟨hne, hlower, hstyle, htold⟩ := hname
  have hletters : name.toList ≠ [] := by simpa using hne
  obtain ⟨style, hstyled⟩ := Option.isSome_iff_exists.1 htold
  have hhandler : (OpenTag.mk name none 0).isHandler = false := by
    rw [OpenTag.isHandler, decide_eq_false_iff_not]
    exact fun hat => ne_of_isLower (hlower _ (List.mem_of_head? hat)) (d := '@') rfl rfl
  have hend : piecesAfter 0 ("[/]".toList ++ t.toList) =
      .text [] :: .closing [] :: t.toList.map fun c => .text [c] := by
    rw [← hplain]
    have hclosing : "[/]".toList = ['[', '/', ']'] := by decide
    rw [hclosing]
    simp [piecesAfter, tagAt?, backslashes, startsTag, Piece.ofTag, Text.trim]
  have hbegin : ("[" ++ name ++ "]" ++ m ++ "[/]" ++ t).toList =
      '[' :: (name.toList ++ ']' :: (m.toList ++ ("[/]".toList ++ t.toList))) := by
    simp only [String.toList_append, List.append_assoc]
    rfl
  rw [render, readMarkup, hbegin, piecesAfter_tag hletters hlower, piecesAfter_append hopen hlast,
    hend, layOut_styled t.toList (ok_of_toOption hstyle) hhandler]
  refine shown_of_styles fun s hs => ?_
  rw [List.mem_singleton.1 hs]
  exact ⟨style, ok_of_toOption hstyled⟩

theorem render_styled (name : String) {m t : String} (hname : IsTagName name)
    (hopen : '[' ∉ m.toList)
    (hescape : '\\' ∉ m.toList) (hplain : '[' ∉ t.toList) :
    render ("[" ++ name ++ "]" ++ m ++ "[/]" ++ t) =
      .ok (String.ofList ((m.toList ++ t.toList).filter fun c => !isControl c)) :=
  render_styled_of_pieces name hname hopen (fun hlast => hescape (List.mem_of_getLast? hlast))
    (piecesAfter_of_notMem hplain)

theorem render_between (name : String) {m : String} (hname : IsTagName name)
    (hopen : '[' ∉ m.toList)
    (hescape : '\\' ∉ m.toList) : ∃ text, render ("[" ++ name ++ "]" ++ m ++ "[/]") = .ok text := by
  have hrender := render_styled name (t := "") hname hopen hescape (by simp)
  rw [String.append_empty] at hrender
  exact ⟨_, hrender⟩

theorem notMem_toString {c : Char} (hc : c.isDigit = false) (n : Nat) :
    c ∉ (toString n).toList := by
  intro h
  have hdigit := Nat.isDigit_of_mem_toDigits (by decide) (by decide) (Nat.toList_repr ▸ h)
  rw [hc] at hdigit
  exact Bool.false_ne_true hdigit

/-! ### Tables -/

theorem mapM_ok {ε α β : Type} {f : α → Except ε β} {l : List α} (h : ∀ a ∈ l, ∃ b, f a = .ok b) :
    ∃ bs, l.mapM f = .ok bs := by
  induction l with
  | nil => exact ⟨[], rfl⟩
  | cons a rest ih =>
    obtain ⟨b, hb⟩ := h a List.mem_cons_self
    obtain ⟨bs, hbs⟩ := ih fun c hc => h c (List.mem_cons_of_mem a hc)
    refine ⟨b :: bs, ?_⟩
    rw [List.mapM_cons, hb, hbs]
    rfl

theorem readMarkup_of_render {s text : String} (h : render s = .ok text) :
    ∃ m, readMarkup s = .ok m := by
  cases hread : readMarkup s with
  | ok m => exact ⟨m, rfl⟩
  | error fault => simp [render, hread, bind, Except.bind] at h

theorem Table.lines_ok {t : Table} (h : ∀ cells ∈ t.rows, ∀ cell ∈ cells, ∃ text,
    render cell = .ok text) : ∃ lines, t.lines = .ok lines := by
  have hread : (byColumn t.columns.length t.rows).forM (fun cells => cells.forM fun cell =>
      (readMarkup cell).map fun _ => ()) = .ok () := by
    refine forM_ok fun cells hcells => forM_ok fun cell hcell => ?_
    obtain ⟨n, -, rfl⟩ := List.mem_map.1 hcells
    obtain ⟨row, hrow, hn⟩ := List.mem_filterMap.1 hcell
    obtain ⟨text, htext⟩ := h row hrow cell (List.mem_of_getElem? hn)
    obtain ⟨m, hm⟩ := readMarkup_of_render htext
    rw [hm]
    rfl
  obtain ⟨texts, htexts⟩ := mapM_ok fun cells hcells => mapM_ok (h cells hcells)
  rw [Table.lines, hread, htexts]
  exact ⟨_, rfl⟩

end VendorTree.Console
