import VendorTree.Proofs.CheckedParts

/-!
# Which values are truth values

A value is a truth value itself, the number zero or one, or a word for no or yes in any case of its
letters. Any other text or whole number of 64 bits is one that could be understood and is not; the
remaining values are of the wrong kind. Checking a value for a truth value finds out which of these
it is.
-/

namespace VendorTree

namespace Data

/-- The value stands for this truth value. -/
inductive MeansBool : Data → Bool → Prop
  | bool (b : Bool) : MeansBool (.bool b) b
  | whole (b : Bool) : MeansBool (.int b.toInt) b
  | decimal {x : Decimal} {b : Bool} (h : (Stored.ofDecimal x).whole? = some b.toInt) :
    MeansBool (.decimal x) b
  | no {s : String} (h : s.map Char.toLower ∈ noWords) : MeansBool (.text s) false
  | yes {s : String} (h : s.map Char.toLower ∈ yesWords) : MeansBool (.text s) true

/-- The value is of a kind that truth values are written in. -/
inductive Understood : Data → Prop
  | whole {i : Int} (hlow : -wordBound ≤ i) (hhigh : i < wordBound) : Understood (.int i)
  | decimal {x : Decimal} {i : Int} (h : (Stored.ofDecimal x).whole? = some i)
    (hsize : i.natAbs < wordBound) : Understood (.decimal x)
  | text (s : String) : Understood (.text s)

/-- The value stands for no truth value, and this is what is wrong with it. -/
def NoBool (d : Data) (c : Complaint) : Prop :=
  (∀ b, ¬d.MeansBool b) ∧ (c = .boolParsing ∧ d.Understood ∨ c = .boolType ∧ ¬d.Understood)

/-- The value stands for a truth value or, where it is empty, for none. -/
inductive MeansChoice : Data → Option Bool → Prop
  | none : MeansChoice .null none
  | some {d : Data} {b : Bool} (h : d.MeansBool b) : MeansChoice d (some b)

/-! ### Numbers and words -/

theorem boolOfWhole?_eq_some {i : Int} {b : Bool} : boolOfWhole? i = some b ↔ i = b.toInt := by
  rw [boolOfWhole?]
  cases b with
  | false =>
    show _ ↔ i = 0
    split <;> simp_all
  | true =>
    show _ ↔ i = 1
    split
    · simp_all
    · split <;> simp_all

theorem words_disjoint {word : String} (h : word ∈ yesWords) : word ∉ noWords := by
  have hdisjoint : ∀ w ∈ yesWords, w ∉ noWords := by decide
  exact hdisjoint word h

theorem boolOfWord?_eq_some {s : String} {b : Bool} :
    boolOfWord? s = some b ↔ (Data.text s).MeansBool b := by
  rw [boolOfWord?]
  constructor
  · intro h
    split at h
    · rename_i hno
      obtain rfl := Option.some.inj h
      exact .no hno
    · split at h
      · rename_i hyes
        obtain rfl := Option.some.inj h
        exact .yes hyes
      · cases h
  · intro h
    cases h with
    | no h => exact if_pos h
    | yes h => rw [if_neg (words_disjoint h), if_pos h]

theorem fitsWord_iff {i : Int} : fitsWord i = true ↔ (Data.int i).Understood := by
  rw [fitsWord, Bool.and_eq_true, decide_eq_true_eq, decide_eq_true_eq]
  constructor
  · exact fun h => .whole h.1 h.2
  · intro h
    cases h with
    | whole hlow hhigh => exact ⟨hlow, hhigh⟩

theorem storedWhole?_eq_some {x : Decimal} {i : Int} :
    storedWhole? x = some i ↔ (Stored.ofDecimal x).whole? = some i ∧ i.natAbs < wordBound := by
  rw [storedWhole?, Option.filter_eq_some_iff, decide_eq_true_eq]

theorem MeansBool.unique {d : Data} {b b' : Bool} (h : d.MeansBool b) (h' : d.MeansBool b') :
    b = b' := by
  have hwhole {b b' : Bool} (h : b.toInt = b'.toInt) : b = b' :=
    Option.some.inj ((boolOfWhole?_eq_some.2 rfl).symm.trans (boolOfWhole?_eq_some.2 h))
  cases h with
  | bool b => cases h'; rfl
  | whole b =>
    generalize hi : b.toInt = i at h'
    cases h' with
    | whole b' => exact hwhole hi
  | decimal h =>
    cases h' with
    | decimal h' => exact hwhole (Option.some.inj (h.symm.trans h'))
  | no h =>
    cases h' with
    | no => rfl
    | yes h' => exact absurd h (words_disjoint h')
  | yes h =>
    cases h' with
    | no h' => exact absurd h' (words_disjoint h)
    | yes => rfl

theorem NoBool.unique {d : Data} {c c' : Complaint} (h : d.NoBool c) (h' : d.NoBool c') :
    c = c' := by
  obtain ⟨-, ⟨rfl, hd⟩ | ⟨rfl, hd⟩⟩ := h
  · obtain ⟨-, ⟨rfl, -⟩ | ⟨-, hd'⟩⟩ := h'
    · rfl
    · exact absurd hd hd'
  · obtain ⟨-, ⟨-, hd'⟩ | ⟨rfl, -⟩⟩ := h'
    · exact absurd hd' hd
    · rfl

theorem NoBool.ne_value {d : Data} {c : Complaint} (h : d.NoBool c) (reason : String) :
    c ≠ .value reason := by
  obtain ⟨-, ⟨rfl, -⟩ | ⟨rfl, -⟩⟩ := h
  · exact nofun
  · exact nofun

/-! ### Checks for truth values -/

theorem settles_of_outcome {d : Data} {x : Checked Bool}
    (h : (∃ b, x = .ok b ∧ d.MeansBool b) ∨ ∃ c, x = .reject c d ∧ d.NoBool c) :
    x.Settles d.MeansBool (Issue.OfValue d d.NoBool) where
  outcome := h.imp_right fun ⟨c, hx, hc⟩ => ⟨⟨[], c, d⟩, hx, c, hc, rfl⟩
  means_unique _ _ hb hb' := hb.unique hb'
  wrong_unique := by
    rintro _ _ ⟨c, hc, rfl⟩ ⟨c', hc', rfl⟩
    rw [hc.unique hc']
  apart := by
    rintro b _ hb ⟨c, hc, rfl⟩
    exact hc.1 b hb

theorem settles_understood {d : Data} {b? : Option Bool} (h : ∀ b, b? = some b ↔ d.MeansBool b)
    (hd : d.Understood) :
    (b?.elim (.reject .boolParsing d) .ok : Checked Bool).Settles d.MeansBool
      (Issue.OfValue d d.NoBool) := by
  apply settles_of_outcome
  cases b? with
  | some b => exact .inl ⟨b, rfl, (h b).1 rfl⟩
  | none =>
    have hnone (b : Bool) (hb : d.MeansBool b) : False := nomatch (h b).2 hb
    exact .inr ⟨.boolParsing, rfl, hnone, .inl ⟨rfl, hd⟩⟩

theorem settles_kind {d : Data} (h : ∀ b, ¬d.MeansBool b) (hd : ¬d.Understood) :
    (.reject .boolType d : Checked Bool).Settles d.MeansBool (Issue.OfValue d d.NoBool) :=
  settles_of_outcome (.inr ⟨.boolType, rfl, h, .inr ⟨rfl, hd⟩⟩)

theorem settles_toBool_int (i : Int) : (toBool (.int i)).Settles (Data.int i).MeansBool
    (Issue.OfValue (.int i) (Data.int i).NoBool) := by
  by_cases hfits : fitsWord i
  · have hform : toBool (.int i) = (boolOfWhole? i).elim (.reject .boolParsing (.int i)) .ok := by
      rw [toBool, if_pos hfits]
      cases boolOfWhole? i <;> rfl
    rw [hform]
    apply settles_understood _ (fitsWord_iff.1 hfits)
    intro b
    rw [boolOfWhole?_eq_some]
    constructor
    · rintro rfl
      exact .whole b
    · intro h
      cases h
      rfl
  · rw [toBool, if_neg hfits]
    apply settles_kind _ (fun hd => hfits (fitsWord_iff.2 hd))
    intro b h
    -- zero and one fit into a word
    cases h
    cases b <;> exact hfits rfl

theorem settles_toBool_decimal (x : Decimal) : (toBool (.decimal x)).Settles
    (Data.decimal x).MeansBool (Issue.OfValue (.decimal x) (Data.decimal x).NoBool) := by
  cases hwhole : storedWhole? x with
  | some i =>
    obtain ⟨hi, hsize⟩ := storedWhole?_eq_some.1 hwhole
    have hform : toBool (.decimal x) =
        (boolOfWhole? i).elim (.reject .boolParsing (.decimal x)) .ok := by
      simp only [toBool, hwhole]
      cases boolOfWhole? i <;> rfl
    rw [hform]
    apply settles_understood _ (.decimal hi hsize)
    intro b
    rw [boolOfWhole?_eq_some]
    constructor
    · rintro rfl
      exact .decimal hi
    · intro h
      cases h with
      | decimal h => exact Option.some.inj (hi.symm.trans h)
  | none =>
    have hform : toBool (.decimal x) = .reject .boolType (.decimal x) := by
      simp only [toBool, hwhole]
    rw [hform]
    apply settles_kind
    · intro b h
      cases h with
      | decimal h =>
        have hsome := storedWhole?_eq_some.2 ⟨h, by cases b <;> decide⟩
        exact nomatch hwhole.symm.trans hsome
    · intro hd
      cases hd with
      | decimal hi hsize => exact nomatch hwhole.symm.trans (storedWhole?_eq_some.2 ⟨hi, hsize⟩)

theorem settles_toBool_text (s : String) : (toBool (.text s)).Settles (Data.text s).MeansBool
    (Issue.OfValue (.text s) (Data.text s).NoBool) := by
  have hform : toBool (.text s) = (boolOfWord? s).elim (.reject .boolParsing (.text s)) .ok := by
    rw [toBool]
    cases boolOfWord? s <;> rfl
  rw [hform]
  exact settles_understood (fun _ => boolOfWord?_eq_some) (.text s)

theorem settles_toBool (d : Data) : d.toBool.Settles d.MeansBool (Issue.OfValue d d.NoBool) := by
  cases d with
  | bool b => exact settles_of_outcome (.inl ⟨b, rfl, .bool b⟩)
  | int i => exact settles_toBool_int i
  | decimal x => exact settles_toBool_decimal x
  | text s => exact settles_toBool_text s
  | null => exact settles_kind (fun _ h => nomatch h) nofun
  | moment m => exact settles_kind (fun _ h => nomatch h) nofun
  | list ds => exact settles_kind (fun _ h => nomatch h) nofun
  | table fields => exact settles_kind (fun _ h => nomatch h) nofun

/-! ### Checks for choices -/

theorem toOptionalBool_eq {d : Data} (h : d ≠ .null) : d.toOptionalBool = some <$> d.toBool := by
  cases d with
  | null => exact absurd rfl h
  | _ => rfl

/-- The value is no choice, and this is what is wrong with it. -/
def NoChoice (d : Data) (c : Complaint) : Prop := d ≠ .null ∧ d.NoBool c

theorem MeansChoice.unique {d : Data} {choice choice' : Option Bool} (h : d.MeansChoice choice)
    (h' : d.MeansChoice choice') : choice = choice' := by
  cases h with
  | none =>
    cases h' with
    | none => rfl
    | some h' => cases h'
  | some h =>
    cases h' with
    | none => cases h
    | some h' => rw [h.unique h']

theorem exists_meansChoice_iff {d : Data} :
    (∃ choice, d.MeansChoice choice) ↔ d = .null ∨ ∃ b, d.MeansBool b := by
  constructor
  · rintro ⟨_, hd⟩
    cases hd with
    | none => exact .inl rfl
    | some h => exact .inr ⟨_, h⟩
  · rintro (rfl | ⟨b, hb⟩)
    · exact ⟨none, .none⟩
    · exact ⟨some b, .some hb⟩

theorem settles_toOptionalBool (d : Data) :
    d.toOptionalBool.Settles d.MeansChoice (Issue.OfValue d d.NoChoice) where
  outcome := by
    by_cases hnull : d = .null
    · subst hnull
      exact .inl ⟨none, rfl, .none⟩
    · rw [toOptionalBool_eq hnull]
      rcases (settles_toBool d).outcome with ⟨b, hx, hb⟩ | ⟨i, hx, c, hc, hi⟩
      · exact .inl ⟨some b, by rw [hx]; rfl, .some hb⟩
      · exact .inr ⟨i, by rw [hx]; rfl, c, ⟨hnull, hc⟩, hi⟩
  means_unique _ _ h h' := h.unique h'
  wrong_unique := by
    rintro _ _ ⟨c, hc, rfl⟩ ⟨c', hc', rfl⟩
    rw [hc.2.unique hc'.2]
  apart := by
    rintro _ _ hd ⟨c, ⟨hsome, hc⟩, -⟩
    cases hd with
    | none => exact hsome rfl
    | some h => exact hc.1 _ h

end Data

end VendorTree
