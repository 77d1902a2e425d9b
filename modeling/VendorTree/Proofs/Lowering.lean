import VendorTree.Preservation

/-!
# Small letters in context

The lower-case form of a text depends on what stands around it only through its capital sigmas: each
of them becomes a final sigma or a plain one. Every other character is lowered on its own.
-/

namespace VendorTree

/-! ### Occurrences -/

theorem occursIn_iff {pattern s : List Char} : occursIn pattern s = true ↔ pattern <:+: s := by
  induction s with
  | nil => simp [occursIn, List.isEmpty_iff]
  | cons c cs ih =>
    rw [occursIn, Bool.or_eq_true, ih, List.infix_cons_iff, List.isPrefixOf_iff_prefix]

namespace PreservationRule

theorem keeps_ofPatterns_iff {starts parts : List String} {file : String} :
    (ofPatterns starts parts).keeps file = true ↔
      (∃ s ∈ starts, Text.lowerChars s.toList <+:
        Text.lowerChars (Path.ofString file).name.toList) ∨
      ∃ s ∈ parts, Text.lowerChars s.toList <:+:
        Text.lowerChars (Path.ofString file).name.toList := by
  simp only [keeps, ofPatterns, List.any_map, Bool.or_eq_true, List.any_eq_true,
    Function.comp_apply, Text.lower, String.toList_ofList, List.isPrefixOf_iff_prefix, occursIn_iff]

end PreservationRule

namespace Text

variable {before after s t : List Char} {c : Char}

/-! ### Lowering between other characters -/

/-- The lower-case form of a list of characters between `before` (nearest first) and `after`. -/
def lowerBetween (before : List Char) : List Char → List Char → List Char
  | [], _ => []
  | c :: cs, after => smallBetween before c (cs ++ after) ++ lowerBetween (c :: before) cs after

theorem lowerAfter_append (before s t : List Char) : lowerAfter before (s ++ t) =
    lowerBetween before s t ++ lowerAfter (s.reverse ++ before) t := by
  induction s generalizing before with
  | nil => rfl
  | cons c cs ih =>
    rw [List.cons_append, lowerAfter, lowerBetween, ih, List.reverse_cons, List.append_assoc,
      List.append_assoc]
    rfl

theorem lowerBetween_nil (before s : List Char) :
    lowerBetween before s [] = lowerAfter before s := by
  have h := lowerAfter_append before s []
  rw [List.append_nil, lowerAfter, List.append_nil] at h
  exact h.symm

/-! ### Capital sigmas -/

/-- A capital sigma between `before` (nearest first) and `after` becomes a final one. -/
def isFinalSigma (before after : List Char) : Bool := meetsCased before && !meetsCased after

/-- Each capital sigma of `s` is final where `s` stands between `before` (nearest first) and `after`
just in case it is final where `s` stands alone. -/
def SigmasStand (before s after : List Char) : Prop :=
  ∀ i < s.length, s[i]? = some 'Σ' →
    isFinalSigma ((s.take i).reverse ++ before) (s.drop (i + 1) ++ after) =
      isFinalSigma (s.take i).reverse (s.drop (i + 1))

instance (before s after : List Char) : Decidable (SigmasStand before s after) :=
  inferInstanceAs (Decidable (∀ i < s.length, s[i]? = some 'Σ' →
    isFinalSigma ((s.take i).reverse ++ before) (s.drop (i + 1) ++ after) =
      isFinalSigma (s.take i).reverse (s.drop (i + 1))))

theorem sigmasStand_of_notMem (h : 'Σ' ∉ s) : SigmasStand before s after :=
  fun _ _ hi => absurd (List.mem_of_getElem? hi) h

theorem smallBetween_of_ne (h : c ≠ 'Σ') (before after before' after' : List Char) :
    smallBetween before c after = smallBetween before' c after' := by
  rw [smallBetween, smallBetween, if_neg h, if_neg h]

theorem smallBetween_sigma (before after before' after' : List Char) :
    smallBetween before 'Σ' after = smallBetween before' 'Σ' after' ↔
      isFinalSigma before after = isFinalSigma before' after' := by
  have hsmall : ∀ l r, smallBetween l 'Σ' r = [if isFinalSigma l r then 'ς' else 'σ'] :=
    fun _ _ => rfl
  rw [hsmall, hsmall]
  cases isFinalSigma before after <;> cases isFinalSigma before' after' <;> decide

theorem length_smallBetween (c : Char) (before after before' after' : List Char) :
    (smallBetween before c after).length = (smallBetween before' c after').length := by
  by_cases hc : c = 'Σ'
  · subst hc
    rfl
  · rw [smallBetween_of_ne hc before after before' after']

theorem length_lowerBetween (s before after before' after' : List Char) :
    (lowerBetween before s after).length = (lowerBetween before' s after').length := by
  induction s generalizing before before' with
  | nil => rfl
  | cons c cs ih =>
    rw [lowerBetween, lowerBetween, List.length_append, List.length_append,
      length_smallBetween c before _ before' (cs ++ after'), ih (c :: before) (c :: before')]

/-- Two contexts give one lower-case form just in case they agree on every capital sigma. -/
theorem lowerBetween_eq_iff (s before after before' after' : List Char) :
    lowerBetween before s after = lowerBetween before' s after' ↔
      ∀ i < s.length, s[i]? = some 'Σ' →
        isFinalSigma ((s.take i).reverse ++ before) (s.drop (i + 1) ++ after) =
          isFinalSigma ((s.take i).reverse ++ before') (s.drop (i + 1) ++ after') := by
  induction s generalizing before before' with
  | nil => simp [lowerBetween]
  | cons c cs ih =>
    have hfirst : smallBetween before c (cs ++ after) = smallBetween before' c (cs ++ after') ↔
        (c = 'Σ' → isFinalSigma before (cs ++ after) = isFinalSigma before' (cs ++ after')) := by
      by_cases hc : c = 'Σ'
      · subst hc
        rw [smallBetween_sigma]
        simp
      · simp [hc, smallBetween_of_ne hc before _ before' (cs ++ after')]
    have hsplit : lowerBetween before (c :: cs) after = lowerBetween before' (c :: cs) after' ↔
        smallBetween before c (cs ++ after) = smallBetween before' c (cs ++ after') ∧
          lowerBetween (c :: before) cs after = lowerBetween (c :: before') cs after' :=
      ⟨fun h => List.append_inj h (length_smallBetween c _ _ _ _),
        fun h => by rw [lowerBetween, h.1, h.2, lowerBetween]⟩
    rw [hsplit, hfirst, ih]
    -- the first character is at index zero, and the others have one character more before them
    rw [List.length_cons, Nat.forall_lt_succ_left]
    simp

/-- Between other characters a text has the lower-case form that it has alone just in case all its
capital sigmas stand. -/
theorem lowerBetween_eq_lowerChars_iff :
    lowerBetween before s after = lowerChars s ↔ SigmasStand before s after := by
  rw [lowerChars, ← lowerBetween_nil, lowerBetween_eq_iff]
  simp [SigmasStand]

theorem lowerChars_isPrefix_iff :
    lowerChars s <+: lowerChars (s ++ t) ↔ SigmasStand [] s t := by
  rw [← lowerBetween_eq_lowerChars_iff, lowerChars.eq_1 (s ++ t), lowerAfter_append]
  have hlength : (lowerBetween [] s t).length = (lowerChars s).length := by
    rw [lowerChars, ← lowerBetween_nil, length_lowerBetween]
  refine ⟨fun h => ?_, fun h => ⟨_, by rw [h]⟩⟩
  obtain ⟨rest, hrest⟩ := h
  exact ((List.append_inj hrest hlength.symm).1).symm

theorem lowerChars_isInfix (h : SigmasStand before.reverse s after) :
    lowerChars s <:+: lowerChars (before ++ s ++ after) := by
  rw [lowerChars.eq_1 (before ++ s ++ after), List.append_assoc, lowerAfter_append,
    lowerAfter_append, List.append_nil, lowerBetween_eq_lowerChars_iff.2 h, ← List.append_assoc]
  exact ⟨_, _, rfl⟩

end Text

end VendorTree
