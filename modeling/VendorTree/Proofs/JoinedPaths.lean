import VendorTree.Proofs.EntryPath

/-!
# Joined paths

Joining a text onto a path adds the names in the text and nothing else: a slash in front of the text
does not lead back to the root, since the text is cut at its slashes before its pieces are joined
one by one. The parts of a path determine it, so the path of an entry of a listing lies below the
root, and two entries have the same path exactly if they have the same names. A path is written in
one way only, from which it can be read back.
-/

namespace VendorTree

/-- The pieces of a text between its slashes. -/
def slashPieces (t : String) : List String := (t.toList.splitOn '/').map String.ofList

/-- The pieces of a text that name something: not the empty one and not the dot. -/
def namingPieces (t : String) : List String := (slashPieces t).filter fun n => n ≠ "" ∧ n ≠ "."

theorem pathNames_eq (t : String) : pathNames t = namingPieces t := by
  rw [pathNames, namingPieces, slashPieces, pieces_eq_splitOn]

theorem slash_notMem_slashPieces {t n : String} (h : n ∈ slashPieces t) : '/' ∉ n.toList := by
  obtain ⟨piece, hpiece, rfl⟩ := List.mem_map.1 h
  rw [← pieces_eq_splitOn] at hpiece
  rw [String.toList_ofList]
  exact Text.separator_notMem_pieces '/' _ piece hpiece

theorem namingPieces_of_notMem {t : String} (h : '/' ∉ t.toList) :
    namingPieces t = [t].filter fun n => n ≠ "" ∧ n ≠ "." := by
  have hpieces : t.toList.splitOn '/' = [t.toList] := by
    have hslash : ∀ s ∈ [t.toList], '/' ∉ s := by simpa using h
    have hsplit := List.splitOn_intercalate '/' hslash (List.cons_ne_nil _ _)
    rwa [List.intercalate_singleton] at hsplit
  rw [namingPieces, slashPieces, hpieces, List.map_singleton, String.ofList_toList]

namespace Path

/-! ### Parts -/

/-- The parts of a path: the slashes it starts with, if there are any, and its names. -/
def parts (p : Path) : List String :=
  if p.isAbsolute then String.ofList p.anchor.chars :: p.names else p.names

theorem eq_of_anchor_of_names {p q : Path} (hanchor : p.anchor = q.anchor)
    (hnames : p.names = q.names) : p = q := by
  cases p
  cases q
  simp_all

theorem slash_mem_chars {a : Anchor} (h : a ≠ .relative) : '/' ∈ a.chars := by
  cases a <;> simp_all [Anchor.chars]

theorem parts_injective : Function.Injective parts := by
  -- a name holds no slash, so the slashes in front are told from a name
  have hstart (p q : Path) (hp : p.isAbsolute = true) (hq : ¬ q.isAbsolute = true) :
      p.parts ≠ q.parts := by
    intro h
    rw [parts, parts, if_pos hp, if_neg hq] at h
    have hname : IsPathName (String.ofList p.anchor.chars) := q.named _ (h ▸ List.mem_cons_self)
    refine hname.2.2 ?_
    rw [String.toList_ofList]
    exact slash_mem_chars (of_decide_eq_true hp)
  intro p q h
  by_cases hp : p.isAbsolute = true <;> by_cases hq : q.isAbsolute = true
  · rw [parts, parts, if_pos hp, if_pos hq] at h
    obtain ⟨hchars, hnames⟩ := List.cons.inj h
    refine eq_of_anchor_of_names ?_ hnames
    have hread := congrArg Anchor.ofChars (String.ofList_injective hchars)
    cases hpa : p.anchor <;> cases hqa : q.anchor <;> simp_all [Anchor.chars, Anchor.ofChars]
  · exact absurd h (hstart p q hp hq)
  · exact absurd h.symm (hstart q p hq hp)
  · rw [parts, parts, if_neg hp, if_neg hq] at h
    have hrelative (p : Path) (hp : ¬ p.isAbsolute = true) : p.anchor = .relative := by
      simpa [isAbsolute] using hp
    exact eq_of_anchor_of_names ((hrelative p hp).trans (hrelative q hq).symm) h

/-! ### Joining -/

/-- The path continued by another one; a path that starts at a root stands alone. -/
def continuedBy (p q : Path) : Path := if q.isAbsolute then q else p.append q

/-- The path continued by texts one after the other. -/
def joinAll (p : Path) (ts : List String) : Path :=
  ts.foldl (fun joined t => joined.continuedBy (ofString t)) p

theorem continuedBy_of_notMem (p : Path) {t : String} (h : '/' ∉ t.toList) :
    p.continuedBy (ofString t) = p.join t := by
  have hanchor : (ofString t).anchor = .relative := by
    refine anchor_of_head_ne fun hhead => h ?_
    exact List.mem_of_head? hhead
  have hrelative : ¬ (ofString t).isAbsolute = true := by simp [isAbsolute, hanchor]
  rw [continuedBy, if_neg hrelative]
  rfl

theorem parts_join (p : Path) (t : String) : (p.join t).parts = p.parts ++ namingPieces t := by
  have habs : (p.join t).isAbsolute = p.isAbsolute := rfl
  have hnames : (p.join t).names = p.names ++ namingPieces t := by rw [← pathNames_eq]; rfl
  rw [parts, parts, habs, hnames]
  split
  · rfl
  · rfl

theorem parts_joinAll (p : Path) {ts : List String} (h : ∀ t ∈ ts, '/' ∉ t.toList) :
    (p.joinAll ts).parts = p.parts ++ ts.filter fun n => n ≠ "" ∧ n ≠ "." := by
  induction ts generalizing p with
  | nil => simp [joinAll]
  | cons t rest ih =>
    have ht : '/' ∉ t.toList := h t List.mem_cons_self
    have hrest := ih (p.join t) fun u hu => h u (List.mem_cons_of_mem _ hu)
    -- a piece without slashes never starts at a root, so it cannot stand alone
    have hstep : p.joinAll (t :: rest) = (p.join t).joinAll rest := by
      rw [joinAll, List.foldl_cons, continuedBy_of_notMem p ht]
      rfl
    rw [hstep, hrest, parts_join, namingPieces_of_notMem ht, List.append_assoc,
      ← List.filter_append]
    rfl

/-- The names in a text are joined all at once or piece by piece. -/
theorem joinAll_slashPieces (p : Path) (t : String) : p.joinAll (slashPieces t) = p.join t := by
  refine parts_injective ?_
  rw [parts_joinAll p fun _ => slash_notMem_slashPieces, parts_join]
  rfl

end Path

/-- The path of an entry comes from joining the pieces of the entry one by one. It has the parts of
the root and after them the pieces that name something, whatever slashes the entry starts with. So
it is the root only if no piece names anything, entries have the same path exactly if these pieces
agree, and the path is read back from its text. -/
theorem absolute_stays_below (l : Listing) :
    (∀ t, l.absolute t = l.root.joinAll (slashPieces t)) ∧
    (∀ t, (l.absolute t).parts = l.root.parts ++ namingPieces t) ∧
    (∀ t, l.absolute ("/" ++ t) = l.absolute t) ∧
    (∀ t, l.absolute t = l.root ↔ ∀ n ∈ slashPieces t, n = "" ∨ n = ".") ∧
    (∀ t u, l.absolute t = l.absolute u ↔ namingPieces t = namingPieces u) ∧
    ∀ t, Path.ofString (l.absolute t).text = l.absolute t := by
  have hparts (t : String) : (l.absolute t).parts = l.root.parts ++ namingPieces t :=
    l.root.parts_join t
  have hsame (t u : String) : l.absolute t = l.absolute u ↔ namingPieces t = namingPieces u := by
    rw [← Path.parts_injective.eq_iff, hparts, hparts, List.append_cancel_left_eq]
  refine ⟨fun t => (l.root.joinAll_slashPieces t).symm, hparts, fun t => ?_, fun t => ?_, hsame,
    fun t => (l.absolute t).ofString_text⟩
  · rw [hsame, ← pathNames_eq, ← pathNames_eq, pathNames_slash]
  · have hroot : l.absolute t = l.root ↔ namingPieces t = [] := by
      rw [← Path.parts_injective.eq_iff, hparts, List.append_right_eq_self]
    rw [hroot, namingPieces, List.filter_eq_nil_iff]
    refine forall₂_congr fun n _ => ?_
    rw [decide_eq_true_eq, Decidable.not_and_iff_not_or_not, Decidable.not_not, Decidable.not_not]

example :
    Listing.absolute { root := Path.ofString "//srv" } "//a/./b/" = Path.ofString "//srv/a/b" := by
  decide +kernel

end VendorTree
