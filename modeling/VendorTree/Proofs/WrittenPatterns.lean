import VendorTree.Proofs.Lowering
import VendorTree.Proofs.Spellings

/-!
# Patterns in the case they are written in

A rule is made from patterns in any case, and it lowers the patterns and the names apart from each
other. A name that shows a pattern just as it is written is kept, as long as every capital sigma of
the pattern comes out the same in both.
-/

namespace VendorTree

variable {rule : PreservationRule} {starts parts : List String} {file : String}

namespace PreservationRule

theorem keeps_of_start {s : String} {rest : List Char} (hs : s ∈ starts)
    (hname : (Path.ofString file).name.toList = s.toList ++ rest)
    (hsigmas : Text.SigmasStand [] s.toList rest) : (ofPatterns starts parts).keeps file = true :=
  keeps_ofPatterns_iff.2 (.inl ⟨s, hs, hname ▸ Text.lowerChars_isPrefix_iff.2 hsigmas⟩)

theorem keeps_of_part {s : String} {before after : List Char} (hs : s ∈ parts)
    (hname : (Path.ofString file).name.toList = before ++ s.toList ++ after)
    (hsigmas : Text.SigmasStand before.reverse s.toList after) :
    (ofPatterns starts parts).keeps file = true :=
  keeps_ofPatterns_iff.2 (.inr ⟨s, hs, hname ▸ Text.lowerChars_isInfix hsigmas⟩)

/-- A name that shows a pattern without capital sigmas as it is written is kept. -/
theorem keeps_of_notMem
    (h : (∃ s ∈ starts, 'Σ' ∉ s.toList ∧ s.toList <+: (Path.ofString file).name.toList) ∨
      ∃ s ∈ parts, 'Σ' ∉ s.toList ∧ s.toList <:+: (Path.ofString file).name.toList) :
    (ofPatterns starts parts).keeps file = true := by
  rcases h with ⟨s, hs, hnone, rest, hname⟩ | ⟨s, hs, hnone, before, after, hname⟩
  · exact keeps_of_start hs hname.symm (Text.sigmasStand_of_notMem hnone)
  · exact keeps_of_part hs hname.symm (Text.sigmasStand_of_notMem hnone)

theorem keeps_single_start_iff {s : String} {rest : List Char}
    (hname : (Path.ofString file).name.toList = s.toList ++ rest) :
    (ofPatterns [s] []).keeps file = true ↔ Text.SigmasStand [] s.toList rest := by
  rw [keeps_ofPatterns_iff, hname]
  simp [Text.lowerChars_isPrefix_iff]

theorem keeps_congr {other : String} (h : pathNames other = pathNames file) :
    rule.keeps other = rule.keeps file := by
  have hname : (Path.ofString other).name = (Path.ofString file).name :=
    congrArg (fun names => names.getLast?.getD "") h
  rw [keeps, keeps, hname]

end PreservationRule

theorem mem_namesIf {chosen : Bool} {stage stage' : Stage} {texts names : List String}
    (h : (stage', names) ∈ namesIf chosen stage texts) :
    stage' = stage ∧ ∃ t ∈ texts, pathNames t = names := by
  unfold namesIf at h
  split at h
  · obtain ⟨t, ht, hsame⟩ := List.mem_map.1 h
    cases hsame
    exact ⟨rfl, t, ht, rfl⟩
  · cases h

/-- The stages that remove files of no use to a build do not plan to remove a file that is kept. -/
theorem Listing.entryPlan_spares (h : rule.keeps file = true) {l : Listing} {used : List String}
    {policies : PolicySet} {stage : Stage}
    (hplan : (stage, pathNames file) ∈ l.entryPlan rule used policies) :
    stage ≠ .unusedPackages ∧ stage ≠ .nonGo := by
  have hspared : ∀ {t : String}, rule.keeps t = false → pathNames t ≠ pathNames file := by
    intro t ht hsame
    rw [PreservationRule.keeps_congr hsame, h] at ht
    cases ht
  rw [entryPlan] at hplan
  simp only [List.mem_append] at hplan
  rcases hplan with hplan | hplan | hplan | hplan | hplan
  · obtain ⟨rfl, -⟩ := mem_namesIf hplan
    decide
  · obtain ⟨-, t, ht, hsame⟩ := mem_namesIf hplan
    have hkept : rule.keeps t = false := by simp_all
    exact absurd hsame (hspared hkept)
  · obtain ⟨-, t, ht, hsame⟩ := mem_namesIf hplan
    have hkept : rule.keeps t = false := by simp_all
    exact absurd hsame (hspared hkept)
  · obtain ⟨rfl, -⟩ := mem_namesIf hplan
    decide
  · obtain ⟨rfl, -⟩ := mem_namesIf hplan
    decide

/-- A base name that starts with one of the starts as it is written, or holds one of the parts, is
kept if each capital sigma of the pattern is final in the name just in case it is final in the
pattern; for a start this is also needed. The stages that remove unused packages and files of other
kinds spare what is kept. -/
theorem keeps_written_patterns (starts parts : List String) (file : String) :
    let name := (Path.ofString file).name.toList
    let rule := PreservationRule.ofPatterns starts parts
    (∀ s ∈ starts, ∀ rest, name = s.toList ++ rest →
        Text.SigmasStand [] s.toList rest → rule.keeps file = true) ∧
      (∀ s ∈ parts, ∀ before after, name = before ++ s.toList ++ after →
        Text.SigmasStand before.reverse s.toList after → rule.keeps file = true) ∧
      (∀ s rest, name = s.toList ++ rest →
        (PreservationRule.ofPatterns [s] []).keeps file = true →
          Text.SigmasStand [] s.toList rest) ∧
      (rule.keeps file = true → ∀ (l : Listing) (used : List String) (policies : PolicySet)
        (stage : Stage), (stage, pathNames file) ∈ l.entryPlan rule used policies →
          stage ≠ .unusedPackages ∧ stage ≠ .nonGo) := by
  intro name rule
  refine ⟨?_, ?_, ?_, ?_⟩
  · intro s hs rest hname hsigmas
    exact PreservationRule.keeps_of_start hs hname hsigmas
  · intro s hs before after hname hsigmas
    exact PreservationRule.keeps_of_part hs hname hsigmas
  · intro s rest hname hkept
    exact (PreservationRule.keeps_single_start_iff hname).1 hkept
  · intro hkept l used policies stage hplan
    exact l.entryPlan_spares hkept hplan

/-- A start with sigmas at both ends of a word and a letter whose small form is longer, and a part
that stands as a word of its own. -/
theorem keeps_written_patterns_sigmas :
    (PreservationRule.ofPatterns ["ΣΑΣ-İ"] []).keeps "v/ΣΑΣ-İΣ.txt" = true ∧
      (PreservationRule.ofPatterns [] ["ΟΔΟΣ"]).keeps "v/Η-ΟΔΟΣ-Μ" = true := by
  obtain ⟨hstarts, -⟩ := keeps_written_patterns ["ΣΑΣ-İ"] [] "v/ΣΑΣ-İΣ.txt"
  obtain ⟨-, hparts, -⟩ := keeps_written_patterns [] ["ΟΔΟΣ"] "v/Η-ΟΔΟΣ-Μ"
  refine ⟨hstarts "ΣΑΣ-İ" (by simp) "Σ.txt".toList (by decide +kernel) (by decide +kernel), ?_⟩
  exact hparts "ΟΔΟΣ" (by simp) "Η-".toList "-Μ".toList (by decide +kernel) (by decide +kernel)

/-- The sigma at the end of a start is final there, and not in a name that goes on with a letter. -/
theorem keeps_loses_final_sigma :
    "ΑΣ".toList <+: (Path.ofString "ΑΣΑ").name.toList ∧
      (PreservationRule.ofPatterns ["ΑΣ"] []).keeps "ΑΣΑ" = false ∧
      (PreservationRule.ofPatterns [] ["ΑΣ"]).keeps "ΑΣΑ" = false := by
  decide +kernel

end VendorTree
