/-!
# Repeated names

The names that occur more than once in a list, each once and in order, found in two ways: in one
pass that remembers what it has seen, and by counting.
-/

namespace VendorTree

def sortNames (names : List String) : List String := names.mergeSort fun a b => a ≤ b

/-- The names that were seen before when their turn comes; `seen` holds the earlier names and
`found` those that are known to be repeated, the latest first. -/
def repeatsAfter (seen found : List String) : List String → List String
  | [] => found
  | n :: rest =>
    if n ∈ seen then repeatsAfter seen (if n ∈ found then found else n :: found) rest
    else repeatsAfter (n :: seen) found rest

/-- The names that occur more than once, found in one pass. -/
def repeatsInOnePass (names : List String) : List String := sortNames (repeatsAfter [] [] names)

/-- The names that occur more than once, found by counting each name. -/
def repeatsByCount (names : List String) : List String :=
  sortNames ((names.filter fun n => 1 < names.count n).eraseDups)

theorem subset_repeatsAfter (seen found names : List String) :
    ∀ n ∈ found, n ∈ repeatsAfter seen found names := by
  induction names generalizing seen found with
  | nil => exact fun n h => h
  | cons m rest ih =>
    intro n hn
    unfold repeatsAfter
    split
    · refine ih _ _ n ?_
      split <;> simp [hn]
    · exact ih _ _ n hn

theorem nodup_of_repeatsAfter_eq_nil {seen names : List String}
    (h : repeatsAfter seen [] names = []) : names.Nodup ∧ ∀ n ∈ names, n ∉ seen := by
  induction names generalizing seen with
  | nil => simp
  | cons m rest ih =>
    unfold repeatsAfter at h
    split at h
    · have hm := subset_repeatsAfter seen [m] rest m (by simp)
      simp only [List.not_mem_nil, if_false] at h
      rw [h] at hm
      simp at hm
    · rename_i hm
      obtain ⟨hrest, hseen⟩ := ih h
      refine ⟨List.nodup_cons.2 ⟨fun hin => ?_, hrest⟩, ?_⟩
      · exact hseen m hin (by simp)
      · intro n hn
        rcases List.mem_cons.1 hn with rfl | hn
        · exact hm
        · exact fun hs => hseen n hn (by simp [hs])

theorem nodup_of_repeatsInOnePass_eq_nil {names : List String} (h : repeatsInOnePass names = []) :
    names.Nodup := by
  refine (@nodup_of_repeatsAfter_eq_nil [] names ?_).1
  have hlen := congrArg List.length h
  simpa [repeatsInOnePass, sortNames] using hlen

theorem nodup_of_repeatsByCount_eq_nil {names : List String} (h : repeatsByCount names = []) :
    names.Nodup := by
  have hlen := congrArg List.length h
  simp only [repeatsByCount, sortNames, List.length_mergeSort, List.length_nil,
    List.length_eq_zero_iff] at hlen
  rw [List.nodup_iff_count]
  intro n
  by_cases hn : 1 < names.count n
  · have hmem : n ∈ (names.filter fun n => 1 < names.count n).eraseDups := by
      rw [List.mem_eraseDups, List.mem_filter]
      exact ⟨List.count_pos_iff.1 (by omega), by simpa using hn⟩
    rw [hlen] at hmem
    simp at hmem
  · omega

end VendorTree
