import VendorTree.Toml.Reader

/-!
# What the reader of documents gives up on

Each part of a document is taken from the front of a text and leaves an end of it. The reader gives
up on a whole number with too many digits and on values that lie too deep in each other. Both need a
text of many digits or many opening brackets, and an end of a text has no more of them than the
text.
-/

namespace VendorTree.Toml

open Text (digitRun isDecimal moreDigits)

/-! ### What the leaves of a document leave -/

/-- A part taken from a text leaves an end of the text. -/
def Leaves {α : Type} (s : List Char) (part : Option (α × List Char)) : Prop :=
  ∀ a rest, part = some (a, rest) → rest <:+ s

section Leaves

variable {α β : Type} {s t : List Char} {part : Option (α × List Char)}

@[simp] theorem leaves_none : Leaves s (none : Option (α × List Char)) := nofun

@[simp] theorem leaves_some {a : α} {rest : List Char} :
    Leaves s (some (a, rest)) ↔ rest <:+ s := by
  simp [Leaves]

theorem Leaves.of_suffix (h : Leaves t part) (hsuffix : t <:+ s) : Leaves s part :=
  fun a rest hpart => (h a rest hpart).trans hsuffix

theorem Leaves.cons {c : Char} (h : Leaves s part) : Leaves (c :: s) part :=
  h.of_suffix (List.suffix_cons c s)

theorem Leaves.map (h : Leaves s part) (f : α × List Char → β × List Char)
    (hf : ∀ p, (f p).2 = p.2) : Leaves s (part.map f) := by
  intro b rest hpart
  obtain ⟨⟨a, rest'⟩, hpart', hfp⟩ := Option.map_eq_some_iff.1 hpart
  obtain rfl : rest' = rest := by simpa [hfp] using (hf (a, rest')).symm
  exact h a rest' hpart'

theorem Leaves.bind {f : α × List Char → Option (β × List Char)} (h : Leaves s part)
    (hf : ∀ p, Leaves p.2 (f p)) : Leaves s (part >>= f) := by
  intro b rest hpart
  obtain ⟨⟨a, rest'⟩, hpart', hfp⟩ := Option.bind_eq_some_iff.1 hpart
  exact (hf (a, rest') b rest hfp).trans (h a rest' hpart')

theorem Leaves.or {other : Option (α × List Char)} (h : Leaves s part) (hother : Leaves s other) :
    Leaves s (part.or other) := by
  cases part with
  | none => exact hother
  | some p => exact h

end Leaves

theorem skipSpaces_suffix (s : List Char) : skipSpaces s <:+ s := List.dropWhile_suffix _

theorem dropFirstLineEnd_suffix (s : List Char) : dropFirstLineEnd s <:+ s := by
  unfold dropFirstLineEnd
  split
  · exact List.suffix_cons _ _
  · exact List.suffix_refl _

theorem expect_suffix {c : Char} {s rest : List Char} (h : expect c s = some rest) :
    rest <:+ s := by
  unfold expect at h
  grind [List.suffix_cons]

theorem skipComment_suffix {s rest : List Char} (h : skipComment s = some rest) : rest <:+ s := by
  unfold skipComment at h
  grind [List.dropWhile_suffix, List.suffix_cons, List.IsSuffix.trans]

theorem skipBlanks_suffix {inComment : Bool} {s rest : List Char}
    (h : skipBlanks inComment s = some rest) : rest <:+ s := by
  fun_induction skipBlanks inComment s with grind [List.suffix_cons, List.IsSuffix.trans]

section Quoted

variable {s : List Char} {part : Option (List Char × List Char)}

theorem Leaves.pushChar (h : Leaves s part) (c : Char) : Leaves s (pushChar c part) :=
  h.map _ fun _ => rfl

theorem readQuoted_leaves (state : QuoteState) (s : List Char) : Leaves s (readQuoted state s) := by
  fun_induction readQuoted state s with
    grind [leaves_none, leaves_some, List.suffix_cons, Leaves.cons, Leaves.pushChar]

theorem takeExtraQuotes_leaves (quote : Char) (s : List Char) :
    Leaves s (some (takeExtraQuotes quote s)) :=
  leaves_some.2 (List.drop_suffix _ _)

theorem readQuotedLines_leaves (state : QuoteState) (s : List Char) :
    Leaves s (readQuotedLines state s) := by
  fun_induction readQuotedLines state s with
    grind [leaves_none, Leaves.cons, Leaves.pushChar, Leaves.of_suffix, takeExtraQuotes_leaves,
      List.drop_suffix]

theorem readLiteral_leaves (s : List Char) : Leaves s (readLiteral s) := by
  fun_induction readLiteral s with
    grind [leaves_none, leaves_some, List.suffix_cons, Leaves.cons, Leaves.pushChar]

theorem readLiteralLines_leaves (s : List Char) : Leaves s (readLiteralLines s) := by
  fun_induction readLiteralLines s with
    grind [leaves_none, Leaves.cons, Leaves.pushChar, Leaves.of_suffix, takeExtraQuotes_leaves,
      List.drop_suffix]

end Quoted

/-! ### Numbers -/

theorem moreDigits_suffix (ok : Char → Bool) (s : List Char) : (moreDigits ok s).2 <:+ s := by
  fun_induction moreDigits ok s with grind [List.suffix_cons, List.IsSuffix.trans]

theorem length_moreDigits_le (ok : Char → Bool) (s : List Char) :
    (moreDigits ok s).1.length ≤ s.countP ok := by
  fun_induction moreDigits ok s with grind

theorem digitRun_leaves (ok : Char → Bool) (s : List Char) : Leaves s (digitRun ok s) := by
  unfold digitRun
  grind [leaves_none, leaves_some, Leaves.cons, moreDigits_suffix]

theorem length_digitRun_le {ok : Char → Bool} {s ds rest : List Char}
    (h : digitRun ok s = some (ds, rest)) : ds.length ≤ s.countP ok := by
  unfold digitRun at h
  grind [length_moreDigits_le]

theorem readSign_suffix (s : List Char) : (readSign s).2 <:+ s := by
  unfold readSign
  grind [List.suffix_cons]

theorem readBased_leaves (s : List Char) : Leaves s (readBased s) := by
  unfold readBased readBased.based
  split
  · exact ((digitRun_leaves _ _).cons).map _ fun _ => rfl
  · exact ((digitRun_leaves _ _).cons).map _ fun _ => rfl
  · exact ((digitRun_leaves _ _).cons).map _ fun _ => rfl
  · exact leaves_none

theorem readBased_ne_outsized (s rest : List Char) : readBased s ≠ some (.outsized, rest) := by
  unfold readBased readBased.based
  split <;> simp

theorem readWhole_leaves (s : List Char) : Leaves s (readWhole s) := by
  unfold readWhole
  grind [leaves_some, List.suffix_cons, digitRun_leaves]

/-- A lone zero is less than the limit, and other digits stand in the text. -/
theorem length_readWhole_le {s ds rest : List Char} (h : readWhole s = some (ds, rest)) :
    ds.length ≤ s.countP isDecimal := by
  unfold readWhole at h
  split at h
  · obtain ⟨rfl, -⟩ : ['0'] = ds ∧ _ := by simpa using h
    rw [List.countP_cons_of_pos (by decide)]
    exact Nat.le_add_left _ _
  · exact length_digitRun_le h

theorem readFraction_suffix (s : List Char) : (readFraction s).2 <:+ s := by
  unfold readFraction
  grind [digitRun_leaves, Leaves, List.suffix_cons, List.IsSuffix.trans]

theorem readExponent_suffix (s : List Char) : (readExponent s).2 <:+ s := by
  unfold readExponent
  grind [digitRun_leaves, readSign_suffix, Leaves, List.suffix_cons, List.IsSuffix.trans]

theorem readDecimal_leaves (s : List Char) : Leaves s (readDecimal s) := by
  unfold readDecimal
  refine Leaves.of_suffix (Leaves.bind (readWhole_leaves _) fun p => ?_) (readSign_suffix s)
  have hfraction := readFraction_suffix p.2
  have hexponent := (readExponent_suffix (readFraction p.2).2).trans hfraction
  grind [leaves_some]

theorem readNumber_leaves (s : List Char) : Leaves s (readNumber s) := by
  unfold readNumber
  split
  · exact (readBased_leaves _).cons.or (readDecimal_leaves _)
  · exact readDecimal_leaves s

theorem readSpecial_leaves (s : List Char) : Leaves s (readSpecial s) := by
  unfold readSpecial
  grind [leaves_some, leaves_none, readSign_suffix, List.drop_suffix, List.IsSuffix.trans]

/-- A number that is given up on has more digits than can be converted, all of them in the text. -/
theorem lt_countP_of_outsized {s rest : List Char} (h : readNumber s = some (.outsized, rest)) :
    wholeDigitLimit < s.countP isDecimal := by
  have hdecimal : ∀ s : List Char, readDecimal s = some (.outsized, rest) →
      wholeDigitLimit < s.countP isDecimal := by
    intro s h
    unfold readDecimal at h
    obtain ⟨⟨whole, rest⟩, hwhole, h⟩ := Option.bind_eq_some_iff.1 h
    have hsign := (readSign_suffix s).sublist.countP_le (p := isDecimal)
    have hlength := length_readWhole_le hwhole
    grind
  unfold readNumber at h
  split at h
  · rcases Option.or_eq_some_iff.1 h with hbased | ⟨-, hdecimal'⟩
    · exact absurd hbased (readBased_ne_outsized _ _)
    · exact hdecimal _ hdecimal'
  · exact hdecimal _ h

/-! ### Dates and times -/

theorem twoDigits_leaves (low high : Nat) (s : List Char) : Leaves s (twoDigits low high s) := by
  unfold twoDigits
  grind [leaves_some, leaves_none, List.suffix_cons, List.IsSuffix.trans]

theorem readMicroseconds_suffix (s : List Char) : (readMicroseconds s).2 <:+ s := by
  unfold readMicroseconds
  grind [List.drop_suffix, List.suffix_cons, List.IsSuffix.trans]

theorem leaves_expect_bind {α : Type} (c : Char) (s : List Char)
    {f : List Char → Option (α × List Char)} (hf : ∀ t, Leaves t (f t)) :
    Leaves s (expect c s >>= f) := by
  intro a rest h
  obtain ⟨t, ht, h⟩ := Option.bind_eq_some_iff.1 h
  exact (hf t a rest h).trans (expect_suffix ht)

theorem readTime_leaves (s : List Char) : Leaves s (readTime s) :=
  (twoDigits_leaves 0 23 s).bind fun p =>
    leaves_expect_bind ':' p.2 fun t => (twoDigits_leaves 0 59 t).bind fun p =>
      leaves_expect_bind ':' p.2 fun t => (twoDigits_leaves 0 59 t).bind fun p =>
        leaves_some.2 (readMicroseconds_suffix p.2)

theorem readDay_leaves (s : List Char) : Leaves s (readDay s) :=
  (twoDigits_leaves 0 99 s).bind fun p => (twoDigits_leaves 0 99 p.2).bind fun p =>
    leaves_expect_bind '-' p.2 fun t => (twoDigits_leaves 1 12 t).bind fun p =>
      leaves_expect_bind '-' p.2 fun t => (twoDigits_leaves 1 31 t).bind fun p =>
        leaves_some.2 (List.suffix_refl p.2)

theorem readOffset_suffix (s : List Char) : (readOffset s).2 <:+ s := by
  unfold readOffset
  split
  · rename_i c rest
    have hdistance : Leaves rest (twoDigits 0 23 rest >>= fun hours =>
        expect ':' hours.2 >>= fun t => twoDigits 0 59 t >>= fun minutes =>
          some (60 * hours.1 + minutes.1, minutes.2)) :=
      (twoDigits_leaves 0 23 rest).bind fun hours => leaves_expect_bind ':' hours.2 fun t =>
        (twoDigits_leaves 0 59 t).bind fun minutes => leaves_some.2 (List.suffix_refl minutes.2)
    split
    · exact List.suffix_cons c rest
    split
    · dsimp only
      split
      · rename_i minutes rest' heq
        exact (hdistance minutes rest' heq).trans (List.suffix_cons c rest)
      · exact List.suffix_refl _
    · exact List.suffix_refl _
  · exact List.suffix_refl _

theorem readTimeAfter_suffix (d : Day) (s : List Char) : (readTimeAfter d s).2 <:+ s := by
  unfold readTimeAfter
  grind [readTime_leaves, readOffset_suffix, Leaves, List.suffix_cons, List.IsSuffix.trans]

theorem readMoment_leaves (s : List Char) : Leaves s (readMoment s) := by
  unfold readMoment
  grind [leaves_some, readDay_leaves, readTimeAfter_suffix, readTime_leaves, Leaves, Leaves.map,
    List.IsSuffix.trans]

/-! ### Keys -/

theorem readKeyPart_leaves (s : List Char) : Leaves s (readKeyPart s) := by
  unfold readKeyPart
  grind [leaves_none, leaves_some, List.dropWhile_suffix, Leaves.map, Leaves.cons,
    readQuoted_leaves, readLiteral_leaves]

theorem readKeyWithin_leaves (parts : Nat) (s : List Char) : Leaves s (readKeyWithin parts s) := by
  induction parts generalizing s with
  | zero => exact leaves_none
  | succ parts ih =>
    refine (readKeyPart_leaves s).bind fun p => ?_
    have hspaces := skipSpaces_suffix p.2
    dsimp only
    split
    · rename_i rest hrest
      rw [hrest] at hspaces
      have hdot : skipSpaces rest <:+ p.2 :=
        ((skipSpaces_suffix rest).trans (List.suffix_cons '.' rest)).trans hspaces
      exact ((ih _).of_suffix hdot).bind fun q => leaves_some.2 (List.suffix_refl q.2)
    · exact leaves_some.2 hspaces

/-! ### Values -/

/-- Reading comes to an end, with a result that has some property or with a malformed text. -/
inductive Decides {α : Type} (result : α → Prop) : Except ReadError α → Prop
  | ok {a : α} (h : result a) : Decides result (.ok a)
  | malformed (reason : Malformation) : Decides result (.error (.malformed reason))

section Decides

variable {α β : Type} {result : α → Prop} {x : Except ReadError α}

theorem Decides.bind {result' : β → Prop} {f : α → Except ReadError β} (h : Decides result x)
    (hf : ∀ a, result a → Decides result' (f a)) : Decides result' (x >>= f) := by
  cases h with
  | ok ha => exact hf _ ha
  | malformed reason => exact .malformed reason

theorem decides_orMalformed {part : Option α} (h : ∀ a, part = some a → result a) :
    Decides result (orMalformed part) := by
  cases part with
  | none => exact .malformed .form
  | some a => exact .ok (h a rfl)

theorem decides_orMisfit {change : Except Misfit α} (h : ∀ a, change = .ok a → result a) :
    Decides result (orMisfit change) := by
  cases change with
  | error misfit => exact .malformed (.misfit misfit)
  | ok a => exact .ok (h a rfl)

end Decides

/-- The characters that open a list or a table. -/
def isOpening (c : Char) : Bool := c = '[' || c = '\x7b'

/-- A text has no more digits than a whole number may have, and no more opening brackets than there
is room for. -/
structure Within (room : Nat) (s : List Char) : Prop where
  digits : s.countP isDecimal ≤ wholeDigitLimit
  opening : 3 * s.countP isOpening ≤ room

theorem suffix_of_cons {c : Char} {s t : List Char} (h : c :: t <:+ s) : t <:+ s :=
  (List.suffix_cons c t).trans h

section Values

variable {room : Nat} {s t : List Char}

theorem Within.of_suffix (h : Within room s) (hsuffix : t <:+ s) : Within room t :=
  ⟨Nat.le_trans hsuffix.sublist.countP_le h.digits,
    Nat.le_trans (Nat.mul_le_mul_left 3 hsuffix.sublist.countP_le) h.opening⟩

/-- Behind an opening bracket there is room for what the bracket takes. -/
theorem Within.enter {c : Char} (h : Within room (c :: t)) (hc : isOpening c = true) :
    3 ≤ room ∧ Within (room - 3) t := by
  have hopening := h.opening
  rw [List.countP_cons_of_pos hc] at hopening
  exact ⟨by omega, (h.of_suffix (List.suffix_cons c t)).digits, by omega⟩

theorem Within.mono {room' : Nat} (h : Within room s) (hroom : room ≤ room') : Within room' s :=
  ⟨h.digits, Nat.le_trans h.opening hroom⟩

/-- A part that is read leaves an end of the text. -/
abbrev Takes {α : Type} (s : List Char) (x : Except ReadError (α × List Char)) : Prop :=
  Decides (fun p => p.2 <:+ s) x

theorem Takes.of_suffix {α : Type} {x : Except ReadError (α × List Char)} (h : Takes t x)
    (hsuffix : t <:+ s) : Takes s x := by
  cases h with
  | ok hrest => exact .ok (hrest.trans hsuffix)
  | malformed reason => exact .malformed reason

theorem Leaves.takes {α : Type} {part : Option (α × List Char)} (h : Leaves s part) :
    Takes s (orMalformed part) :=
  decides_orMalformed fun p hp => h p.1 p.2 hp

theorem readKey_takes (s : List Char) : Takes s (readKey s) := (readKeyWithin_leaves _ s).takes

theorem expect_decides (c : Char) (s : List Char) :
    Decides (· <:+ s) (orMalformed (expect c s)) :=
  decides_orMalformed fun _ => expect_suffix

theorem skipBlanks_decides (s : List Char) :
    Decides (· <:+ s) (orMalformed (skipBlanks false s)) :=
  decides_orMalformed fun _ => skipBlanks_suffix

theorem Takes.map {α β : Type} {x : Except ReadError (α × List Char)} (h : Takes s x)
    (f : α × List Char → β × List Char) (hf : ∀ p, (f p).2 = p.2) : Takes s (x.map f) := by
  cases h with
  | ok hrest => exact .ok (by rwa [hf])
  | malformed reason => exact .malformed reason

theorem readScalar_takes (h : s.countP isDecimal ≤ wholeDigitLimit) : Takes s (readScalar s) := by
  have htext : ∀ {part : Option (List Char × List Char)}, Leaves s part →
      Takes s ((orMalformed part).map fun p => (Data.text (String.ofList p.1), p.2)) :=
    fun hpart => hpart.takes.map _ fun _ => rfl
  unfold readScalar
  split
  · rename_i rest
    have hlines := (readQuotedLines_leaves .plain _).of_suffix (dropFirstLineEnd_suffix rest)
    exact htext hlines.cons.cons.cons
  · exact htext (readQuoted_leaves .plain _).cons
  · rename_i rest
    have hlines := (readLiteralLines_leaves _).of_suffix (dropFirstLineEnd_suffix rest)
    exact htext hlines.cons.cons.cons
  · exact htext (readLiteral_leaves _).cons
  · split
    · exact .ok (List.drop_suffix 4 s)
    split
    · exact .ok (List.drop_suffix 5 s)
    split
    · rename_i moment rest hmoment
      cases moment with
      | none => exact .malformed .form
      | some m => exact .ok (readMoment_leaves s _ rest hmoment)
    split
    · rename_i i rest hnumber
      exact .ok (readNumber_leaves s _ rest hnumber)
    · rename_i rest hnumber
      exact absurd (lt_countP_of_outsized hnumber) (Nat.not_lt.2 h)
    · rename_i d rest hnumber
      exact .ok (readNumber_leaves s _ rest hnumber)
    · exact (readSpecial_leaves s).takes.map _ fun _ => rfl

/-- With some fuel, values are taken from the texts with room for them. -/
structure ValuesTaken (fuel : Nat) : Prop where
  value : ∀ {room s}, Within room s → Takes s (readValueWithin fuel room s)
  items : ∀ {room s}, Within room s → Takes s (readItems fuel room s)
  pairs : ∀ {room fields s}, Within room s → Takes s (readPairs fuel room fields s)

section Step

variable {fuel : Nat}

theorem ValuesTaken.readValueWithin (h : ValuesTaken fuel) (hs : Within room s) :
    Takes s (readValueWithin (fuel + 1) room s) := by
  unfold Toml.readValueWithin
  split
  · contradiction
  · rename_i fuel' room' rest heq
    obtain rfl := Nat.succ.inj heq
    obtain ⟨hroom, hrest⟩ := hs.enter rfl
    rw [if_neg (by omega)]
    -- a list takes less of the room than a bracket is counted for
    have hitems := h.items (hrest.mono (Nat.sub_le_sub_left (by decide : 2 ≤ 3) _))
    exact hitems.bind fun p hp => .ok (hp.trans (List.suffix_cons _ rest))
  · rename_i fuel' room' rest heq
    obtain rfl := Nat.succ.inj heq
    obtain ⟨hroom, hrest⟩ := hs.enter rfl
    rw [if_neg (by omega)]
    have hspaces := skipSpaces_suffix rest
    split
    · rename_i after hafter
      exact .ok ((suffix_of_cons (hafter ▸ hspaces)).trans (List.suffix_cons _ rest))
    · exact (h.pairs (hrest.of_suffix hspaces)).bind fun p hp =>
        .ok ((hp.trans hspaces).trans (List.suffix_cons _ rest))
  · exact readScalar_takes hs.digits

theorem ValuesTaken.readItems (h : ValuesTaken fuel) (hs : Within room s) :
    Takes s (readItems (fuel + 1) room s) := by
  unfold Toml.readItems
  refine (skipBlanks_decides s).bind fun t ht => ?_
  split
  · exact .ok (suffix_of_cons ht)
  · refine (h.value (hs.of_suffix ht)).bind fun p hp => ?_
    refine (skipBlanks_decides p.2).bind fun u hu => ?_
    have hus := (hu.trans hp).trans ht
    split
    · exact .ok (suffix_of_cons hus)
    · exact (h.items (hs.of_suffix (suffix_of_cons hus))).bind fun q hq =>
        .ok (hq.trans (suffix_of_cons hus))
    · exact .malformed .form

theorem ValuesTaken.readPairs {fields : Fields} (h : ValuesTaken fuel) (hs : Within room s) :
    Takes s (readPairs (fuel + 1) room fields s) := by
  unfold Toml.readPairs
  refine (readKey_takes s).bind fun p hp => ?_
  refine (expect_decides '=' p.2).bind fun t ht => ?_
  have hts := ((skipSpaces_suffix t).trans ht).trans hp
  refine (h.value (hs.of_suffix hts)).bind fun q hq => ?_
  refine (decides_orMisfit fun _ _ => trivial).bind fun fields _ => ?_
  have hqs := ((skipSpaces_suffix q.2).trans hq).trans hts
  split
  · rename_i rest hrest
    exact .ok (suffix_of_cons (hrest ▸ hqs))
  · rename_i rest hrest
    have hnext := (skipSpaces_suffix rest).trans (suffix_of_cons (hrest ▸ hqs))
    exact (h.pairs (hs.of_suffix hnext)).of_suffix hnext
  · exact .malformed .form

end Step

theorem valuesTaken (fuel : Nat) : ValuesTaken fuel := by
  -- the three readers call each other with less fuel, so they are dealt with together
  induction fuel with
  | zero => exact ⟨fun _ => .malformed .form, fun _ => .malformed .form, fun _ => .malformed .form⟩
  | succ fuel ih => exact ⟨ih.readValueWithin, ih.readItems, ih.readPairs⟩

end Values

/-! ### Lines -/

section Lines

variable {p : Progress} {s : List Char}

theorem readHeader_takes (p : Progress) (s : List Char) : Takes s (readHeader p s) := by
  unfold readHeader
  split
  · rename_i rest
    refine Takes.of_suffix ?_
      ((skipSpaces_suffix rest).trans (suffix_of_cons (List.suffix_cons '[' _)))
    refine (readKey_takes _).bind fun key hkey => ?_
    refine (decides_orMisfit fun _ _ => trivial).bind fun fields _ => ?_
    refine (expect_decides ']' key.2).bind fun t ht => (expect_decides ']' t).bind fun u hu => ?_
    exact .ok ((hu.trans ht).trans hkey)
  · rename_i rest _
    refine Takes.of_suffix ?_ ((skipSpaces_suffix rest).trans (List.suffix_cons '[' rest))
    refine (readKey_takes _).bind fun key hkey => ?_
    refine (decides_orMisfit fun _ _ => trivial).bind fun fields _ => ?_
    exact (expect_decides ']' key.2).bind fun t ht => .ok (ht.trans hkey)
  · exact .malformed .form

theorem readAssignment_takes (h : Within roomForValues s) : Takes s (readAssignment p s) := by
  unfold readAssignment
  refine (readKey_takes s).bind fun key hkey => (expect_decides '=' key.2).bind fun t ht => ?_
  have hts := ((skipSpaces_suffix t).trans ht).trans hkey
  refine ((valuesTaken _).value (h.of_suffix hts)).bind fun value hvalue => ?_
  exact (decides_orMisfit fun _ _ => trivial).bind fun fields _ => .ok (hvalue.trans hts)

theorem endLine_decides (s : List Char) : Decides (· <:+ s) (endLine s) := by
  unfold endLine
  refine (decides_orMalformed fun _ => skipComment_suffix).bind fun t ht => ?_
  have hts := ht.trans (skipSpaces_suffix s)
  split
  · exact .ok hts
  · exact .ok (suffix_of_cons hts)
  · exact .malformed .form

theorem readLinesWithin_decides (lines : Nat) (h : Within roomForValues s) :
    Decides (fun _ => True) (readLinesWithin lines p s) := by
  induction lines generalizing p s with
  | zero => exact .malformed .form
  | succ lines ih =>
    have hspaces := skipSpaces_suffix s
    unfold readLinesWithin
    split
    · exact .ok trivial
    · rename_i rest hrest
      exact ih (h.of_suffix (suffix_of_cons (hrest ▸ hspaces)))
    · rename_i rest hrest
      rw [hrest] at hspaces
      exact (endLine_decides _).bind fun t ht => ih (h.of_suffix (ht.trans hspaces))
    · rename_i rest hrest
      rw [hrest] at hspaces
      refine (readHeader_takes p _).bind fun q hq => (endLine_decides q.2).bind fun t ht => ?_
      exact ih (h.of_suffix ((ht.trans hq).trans hspaces))
    · refine (readAssignment_takes (h.of_suffix hspaces)).bind fun q hq => ?_
      refine (endLine_decides q.2).bind fun t ht => ?_
      exact ih (h.of_suffix ((ht.trans hq).trans hspaces))

end Lines

theorem unifyLineEnds_sublist (s : List Char) : (unifyLineEnds s).Sublist s := by
  fun_induction unifyLineEnds s with grind

/-- The reader decides on a text with room for the values in it. -/
theorem readDocument_decides {text : String} (h : Within roomForValues text.toList) :
    Decides (fun _ => True) (readDocument text) := by
  have hsub := unifyLineEnds_sublist text.toList
  refine (readLinesWithin_decides _ ?_).bind fun _ _ => .ok trivial
  exact ⟨Nat.le_trans hsub.countP_le h.digits,
    Nat.le_trans (Nat.mul_le_mul_left 3 hsub.countP_le) h.opening⟩

end VendorTree.Toml
