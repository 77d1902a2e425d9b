import VendorTree.Proofs.SweepOrder
import VendorTree.Repeats

/-!
# What repeated names are

The pass over a list of names keeps the names it has seen and those found repeated. It ends with the
names that occur more than once, each once; sorted, they are increasing. Counting each name finds
the same ones, and the names that occur more than once are in increasing order in one way only.
-/

namespace VendorTree

/-- These are the names that occur more than once, in increasing order. -/
structure RepeatsOf (names repeats : List String) : Prop where
  increasing : repeats.Pairwise (· < ·)
  mem_iff : ∀ n, n ∈ repeats ↔ 1 < names.count n

/-! ### One pass -/

variable {names : List String}

/-- A name ends as repeated if it was known as such, if it was seen and comes again, or if it comes
twice. -/
theorem mem_repeatsAfter {seen found : List String} {n : String} :
    n ∈ repeatsAfter seen found names ↔ n ∈ found ∨ (n ∈ seen ∧ n ∈ names) ∨ 1 < names.count n := by
  induction names generalizing seen found with
  | nil => simp [repeatsAfter]
  | cons m rest ih =>
    unfold repeatsAfter
    by_cases hm : m ∈ seen
    · have hfound : n ∈ (if m ∈ found then found else m :: found) ↔ n = m ∨ n ∈ found := by
        split
        · rename_i hmem
          exact ⟨.inr, fun h => h.elim (fun heq => heq ▸ hmem) id⟩
        · exact List.mem_cons
      rw [if_pos hm, ih, hfound, List.mem_cons]
      by_cases hnm : n = m
      · simp [hnm, hm]
      · simp [hnm, List.count_cons_of_ne (Ne.symm hnm)]
    · rw [if_neg hm, ih, List.mem_cons, List.mem_cons]
      by_cases hnm : n = m
      · -- the name is seen here for the first time: it comes twice if it comes again
        have hcount : 1 < rest.count n + 1 ↔ n ∈ rest := by
          rw [← List.count_pos_iff]
          omega
        subst hnm
        rw [List.count_cons_self, hcount]
        have hsub : 1 < rest.count n → n ∈ rest := fun h => List.count_pos_iff.1 (by omega)
        simp only [hm, true_or, true_and, false_and, false_or]
        exact or_congr_right ⟨fun h => h.elim id hsub, .inl⟩
      · simp [hnm, List.count_cons_of_ne (Ne.symm hnm)]

theorem nodup_repeatsAfter {seen found : List String} (h : found.Nodup) :
    (repeatsAfter seen found names).Nodup := by
  induction names generalizing seen found with
  | nil => exact h
  | cons m rest ih =>
    unfold repeatsAfter
    split
    · apply ih
      split
      · exact h
      · rename_i hm
        exact List.nodup_cons.2 ⟨hm, h⟩
    · exact ih h

theorem RepeatsOf.eq_nil_iff {repeats : List String} (h : RepeatsOf names repeats) :
    repeats = [] ↔ names.Nodup := by
  rw [List.eq_nil_iff_forall_not_mem, List.nodup_iff_count]
  refine forall_congr' fun n => ?_
  rw [h.mem_iff]
  omega

/-- Names in increasing order are determined by which they are. -/
theorem RepeatsOf.unique {repeats repeats' : List String} (h : RepeatsOf names repeats)
    (h' : RepeatsOf names repeats') : repeats = repeats' := by
  have hnodup {l : List String} (hl : l.Pairwise (· < ·)) : l.Nodup := by
    refine hl.imp ?_
    rintro a _ hlt rfl
    exact String.lt_irrefl a hlt
  refine eq_of_ordered ?_ h.increasing h'.increasing (hnodup h.increasing) (hnodup h'.increasing)
    fun n => (h.mem_iff n).trans (h'.mem_iff n).symm
  intro a b _ _ hab hba
  exact absurd (String.lt_trans hab hba) (String.lt_irrefl a)

/-! ### Sorted -/

theorem increasing_sortNames (h : names.Nodup) : (sortNames names).Pairwise (· < ·) := by
  have htrans (a b c : String) (hab : decide (a ≤ b) = true) (hbc : decide (b ≤ c) = true) :
      decide (a ≤ c) = true :=
    decide_eq_true (String.le_trans (of_decide_eq_true hab) (of_decide_eq_true hbc))
  have htotal (a b : String) : (decide (a ≤ b) || decide (b ≤ a)) = true := by
    simpa only [Bool.or_eq_true, decide_eq_true_eq] using String.le_total a b
  have hsorted := List.pairwise_mergeSort htrans htotal names
  have hnodup : (sortNames names).Nodup := (List.mergeSort_perm _ _).nodup_iff.2 h
  refine (hsorted.and hnodup).imp ?_
  rintro a b ⟨hle, hne⟩
  exact String.not_le.1 fun hge => hne (String.le_antisymm (of_decide_eq_true hle) hge)

theorem repeatsInOnePass_spec (names : List String) : RepeatsOf names (repeatsInOnePass names) where
  increasing := increasing_sortNames (nodup_repeatsAfter List.nodup_nil)
  mem_iff n := by
    rw [repeatsInOnePass, sortNames, List.mem_mergeSort, mem_repeatsAfter]
    simp

theorem repeatsInOnePass_eq_nil (h : names.Nodup) : repeatsInOnePass names = [] :=
  (repeatsInOnePass_spec names).eq_nil_iff.2 h

/-! ### Counting -/

theorem repeatsByCount_spec (names : List String) : RepeatsOf names (repeatsByCount names) where
  increasing := increasing_sortNames (nodup_eraseDups _)
  mem_iff n := by
    rw [repeatsByCount, sortNames, List.mem_mergeSort, List.mem_eraseDups, List.mem_filter,
      decide_eq_true_eq]
    refine and_iff_right_of_imp fun hcount => ?_
    exact List.count_pos_iff.1 (Nat.zero_lt_of_lt hcount)

theorem repeatsByCount_eq_nil (h : names.Nodup) : repeatsByCount names = [] :=
  (repeatsByCount_spec names).eq_nil_iff.2 h

end VendorTree
