import VendorTree.Proofs.Listed

/-!
# Trees without links

Where there are no links, a path is followed by its steps alone, so that a path and its continuation
lead on from each other, and names lead to the key that they extend.
-/

namespace VendorTree

namespace Store

variable {s : Store} {follow follow' : Bool} {links links' : Nat} {here k : Key} {a b : List Step}

/-- No entry is a link. -/
def LinkFree (s : Store) : Prop := ∀ k target, s.get? k ≠ some (.link target)

theorem linkFree_of_entries (h : ∀ e ∈ s.entries, e.2.kind ≠ .link) : s.LinkFree := by
  intro k target hn
  have hne : k ≠ [] := by
    rintro rfl
    simp at hn
  exact h _ ((get?_eq_some_iff hne).1 hn) rfl

theorem advance_of_linkFree (hs : s.LinkFree) {step : Step} {rest : List Step} {target : String} :
    s.advance follow here step rest ≠ .through target := by
  intro h
  obtain ⟨-, name, -, hlink, -⟩ := advance_eq_through.1 h
  exact hs _ target hlink

theorem walkOn_of_linkFree {jump jump' : Key → List Step → Except ErrorCode Spot}
    (hs : s.LinkFree) : s.walkOn follow jump here a = s.walkOn follow' jump' here a := by
  induction a generalizing here with
  | nil => rfl
  | cons step rest ih =>
    have hsame : s.advance follow here step rest = s.advance follow' here step rest := by
      unfold advance
      split
      · rfl
      · split
        · rfl
        · rfl
        · split
          · rfl
          · split
            · rfl
            · exact absurd ‹_› (hs _ _)
            · rfl
      · rfl
    rw [walkOn_cons, walkOn_cons, ← hsame]
    cases hstep : s.advance follow here step rest with
    | onward next => exact ih
    | through target => exact absurd hstep (advance_of_linkFree hs)
    | ends outcome => rfl

theorem walk_of_linkFree (hs : s.LinkFree) :
    s.walk follow links here a = s.walk follow' links' here a := by
  obtain ⟨jump, hjump⟩ := walk_eq_walkOn s follow links
  obtain ⟨jump', hjump'⟩ := walk_eq_walkOn s follow' links'
  rw [hjump, hjump']
  exact walkOn_of_linkFree hs

theorem walk_nil : s.walk follow links here [] = .ok (.entry here) := by
  obtain ⟨jump, hjump⟩ := walk_eq_walkOn s follow links
  rw [hjump]
  rfl

theorem walkFrom_append_of_linkFree {p : Position} (hs : s.LinkFree)
    (h : s.walkFrom true p a = .ok (.entry k)) :
    s.walkFrom true p (a ++ b) = s.walk true linkLimit k b := by
  by_cases hb : b = []
  · rw [hb, List.append_nil, h, walk_nil]
  · exact walkFrom_append hb h fun _ => walk_of_linkFree hs

/-- Where a step leads from a directory if there is no link. -/
def stepFrom (here : Key) : Step → Key
  | .stay => here
  | .up => here.dropLast
  | .enter name => here ++ [name]

theorem eq_stepFrom_of_advance {step : Step} {rest : List Step}
    (h : s.advance follow here step rest = .onward k) : k = stepFrom here step := by
  obtain ⟨-, ⟨rfl, rfl⟩ | ⟨rfl, rfl⟩ | ⟨name, node, rfl, -, -, rfl⟩⟩ := advance_eq_onward.1 h
  · rfl
  · rfl
  · rfl

/-- Without links, the steps alone tell where a path leads. -/
theorem entry_of_walk (hs : s.LinkFree) (h : s.walk follow links here a = .ok (.entry k)) :
    k = a.foldl stepFrom here := by
  obtain ⟨jump, hjump⟩ := walk_eq_walkOn s follow links
  rw [hjump] at h
  induction a generalizing here with
  | nil => simpa [walkOn] using h.symm
  | cons step rest ih =>
    cases hstep : s.advance follow here step rest with
    | onward next =>
      rw [walkOn_of_onward hstep] at h
      rw [List.foldl_cons, ← eq_stepFrom_of_advance hstep]
      exact ih h
    | through target => exact absurd hstep (advance_of_linkFree hs)
    | ends outcome =>
      rw [walkOn_of_ends hstep] at h
      subst h
      obtain ⟨-, -, -, name, target, -, hlink, -⟩ := advance_eq_entry.1 hstep
      exact absurd hlink (hs _ target)

theorem foldl_stepFrom_enter (here : Key) (names : List String) :
    (names.map Step.enter).foldl stepFrom here = here ++ names := by
  induction names generalizing here with
  | nil => simp
  | cons n rest ih =>
    rw [List.map_cons, List.foldl_cons, ih, stepFrom, List.append_assoc]
    rfl

theorem entry_of_walk_enter {names : List String} (hs : s.LinkFree)
    (h : s.walk follow links here (names.map Step.enter) = .ok (.entry k)) :
    k = here ++ names :=
  (entry_of_walk hs h).trans (foldl_stepFrom_enter here names)

end Store

end VendorTree
