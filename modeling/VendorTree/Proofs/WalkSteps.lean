import VendorTree.Proofs.StoreTree

/-!
# The steps of a walk

A walk looks at one step at a time: it goes on in a directory, is sent through a link, or ends. What
a step does is told by what lies at the directory and at the name that is entered, and each property
of walks is a property of steps carried along by induction.
-/

namespace VendorTree

/-- What one step of a walk comes to. -/
inductive Advance
  | onward (here : Key)
  | through (target : String)
  | ends (outcome : Except ErrorCode Spot)

namespace Store

variable {s t : Store} {follow follow' : Bool} {jump : Key → List Step → Except ErrorCode Spot}
  {here next k : Key} {step : Step} {rest rest' : List Step} {target : String}
  {outcome : Except ErrorCode Spot}

/-- The first of some steps, from the directory `here`. -/
def advance (s : Store) (follow : Bool) (here : Key) (step : Step) (rest : List Step) : Advance :=
  match s.get? here with
  | none => .ends (.error .notFound)
  | some .directory =>
    match step with
    | .stay => .onward here
    | .up => .onward here.dropLast
    | .enter name =>
      if nameLimit < name.utf8ByteSize then .ends (.error .nameTooLong)
      else match s.get? (here ++ [name]) with
        | none => .ends (if rest = [] then .ok (.vacant here name) else .error .notFound)
        | some (.link target) =>
          if rest = [] ∧ ¬ follow then .ends (.ok (.entry (here ++ [name]))) else .through target
        | some _ => .onward (here ++ [name])
  | some _ => .ends (.error .notDirectory)

theorem walkOn_cons (s : Store) (follow : Bool) (jump : Key → List Step → Except ErrorCode Spot)
    (here : Key) (step : Step) (rest : List Step) :
    s.walkOn follow jump here (step :: rest) = match s.advance follow here step rest with
      | .onward next => s.walkOn follow jump next rest
      | .through target => jump (targetStart target here) (Step.ofText target ++ rest)
      | .ends outcome => outcome := by
  simp only [walkOn, advance]
  cases s.get? here with
  | none => rfl
  | some node =>
    cases node with
    | file contents => rfl
    | link target => rfl
    | directory =>
      cases step with
      | stay => rfl
      | up => rfl
      | enter name =>
        by_cases hlimit : nameLimit < name.utf8ByteSize
        · simp only [hlimit, if_true]
        · simp only [hlimit, if_false]
          cases s.get? (here ++ [name]) with
          | none => rfl
          | some node =>
            cases node with
            | directory => rfl
            | file contents => rfl
            | link target =>
              dsimp only
              split <;> rfl

theorem walkOn_of_onward (h : s.advance follow here step rest = .onward next) :
    s.walkOn follow jump here (step :: rest) = s.walkOn follow jump next rest := by
  rw [walkOn_cons, h]

theorem walkOn_of_through (h : s.advance follow here step rest = .through target) :
    s.walkOn follow jump here (step :: rest) =
      jump (targetStart target here) (Step.ofText target ++ rest) := by
  rw [walkOn_cons, h]

theorem walkOn_of_ends (h : s.advance follow here step rest = .ends outcome) :
    s.walkOn follow jump here (step :: rest) = outcome := by
  rw [walkOn_cons, h]

/-! ### What a step does -/

theorem not_overlong_of_get? {name : String} {node : Node}
    (h : s.get? (here ++ [name]) = some node) : ¬ nameLimit < name.utf8ByteSize := by
  obtain ⟨-, -, -, hn⟩ := isEntryName_of_get? (Option.isSome_of_eq_some h) name (by simp)
  omega

/-- Where a step leads on, it does so whether links are followed and whatever comes after it. -/
theorem advance_eq_onward : s.advance follow here step rest = .onward next ↔
    s.get? here = some .directory ∧
      (step = .stay ∧ next = here ∨ step = .up ∧ next = here.dropLast ∨
        ∃ name node, step = .enter name ∧ s.get? (here ++ [name]) = some node ∧
          (∀ target, node ≠ .link target) ∧ next = here ++ [name]) := by
  constructor
  · intro h
    unfold advance at h
    split at h
    · cases h
    · rename_i hhere
      refine ⟨hhere, ?_⟩
      split at h
      · exact .inl ⟨rfl, (Advance.onward.inj h).symm⟩
      · exact .inr (.inl ⟨rfl, (Advance.onward.inj h).symm⟩)
      · rename_i name
        split at h
        · cases h
        · split at h
          · cases h
          · split at h <;> cases h
          · rename_i node hlink hn
            exact .inr (.inr ⟨name, node, rfl, hn, fun target heq => hlink target (heq ▸ rfl),
              (Advance.onward.inj h).symm⟩)
    · cases h
  · rintro ⟨hhere, ⟨rfl, rfl⟩ | ⟨rfl, rfl⟩ | ⟨name, node, rfl, hn, hnode, rfl⟩⟩
    · simp only [advance, hhere]
    · simp only [advance, hhere]
    · simp only [advance, hhere, not_overlong_of_get? hn, if_false, hn]

theorem advance_eq_through : s.advance follow here step rest = .through target ↔
    s.get? here = some .directory ∧ ∃ name, step = .enter name ∧
      s.get? (here ++ [name]) = some (.link target) ∧ (rest ≠ [] ∨ follow = true) := by
  constructor
  · intro h
    unfold advance at h
    split at h
    · cases h
    · rename_i hhere
      refine ⟨hhere, ?_⟩
      split at h
      · cases h
      · cases h
      · rename_i name
        split at h
        · cases h
        · split at h
          · cases h
          · rename_i hn
            split at h
            · cases h
            · rename_i hlast
              cases h
              refine ⟨name, rfl, hn, ?_⟩
              by_cases hnil : rest = []
              · exact .inr (Decidable.byContradiction fun hfollow => hlast ⟨hnil, hfollow⟩)
              · exact .inl hnil
          · cases h
    · cases h
  · rintro ⟨hhere, name, rfl, hn, hmore⟩
    have hlast : ¬ (rest = [] ∧ ¬ follow = true) := by
      rintro ⟨hnil, hfollow⟩
      exact hmore.elim (fun hne => hne hnil) hfollow
    simp only [advance, hhere, not_overlong_of_get? hn, if_false, hn, if_neg hlast]

/-- A walk ends at an entry only where it does not follow the last link. -/
theorem advance_eq_entry : s.advance follow here step rest = .ends (.ok (.entry k)) ↔
    s.get? here = some .directory ∧ rest = [] ∧ follow = false ∧ ∃ name target,
      step = .enter name ∧ s.get? (here ++ [name]) = some (.link target) ∧ k = here ++ [name] := by
  constructor
  · intro h
    unfold advance at h
    split at h
    · simp at h
    · rename_i hhere
      refine ⟨hhere, ?_⟩
      split at h
      · cases h
      · cases h
      · rename_i name
        split at h
        · simp at h
        · split at h
          · split at h <;> simp at h
          · rename_i target hn
            split at h
            · rename_i hlast
              obtain ⟨hnil, hfollow⟩ := hlast
              refine ⟨hnil, Bool.eq_false_iff.2 hfollow, name, target, rfl, hn, ?_⟩
              simpa using h.symm
            · cases h
          · cases h
    · simp at h
  · rintro ⟨hhere, rfl, rfl, name, target, rfl, hn, rfl⟩
    simp [advance, hhere, not_overlong_of_get? hn, hn]

theorem advance_ne_lost : s.advance follow here step rest ≠ .ends (.ok .lost) := by
  intro h
  unfold advance at h
  split at h
  · simp at h
  · split at h
    · cases h
    · cases h
    · split at h
      · simp at h
      · split at h
        · split at h <;> simp at h
        · split at h <;> simp at h
        · cases h
  · simp at h

theorem advance_enter {name : String} {node : Node} (hhere : s.get? here = some .directory)
    (hn : s.get? (here ++ [name]) = some node) (hnode : ∀ target, node ≠ .link target) :
    s.advance follow here (.enter name) rest = .onward (here ++ [name]) :=
  advance_eq_onward.2 ⟨hhere, .inr (.inr ⟨name, node, rfl, hn, hnode, rfl⟩)⟩

theorem advance_onward (h : s.advance follow here step rest = .onward next) (follow' : Bool)
    (rest' : List Step) : s.advance follow' here step rest' = .onward next :=
  advance_eq_onward.2 (advance_eq_onward.1 h)

theorem advance_through (h : s.advance follow here step rest = .through target)
    (hmore : rest' ≠ [] ∨ follow' = true) :
    s.advance follow' here step rest' = .through target := by
  obtain ⟨hhere, name, hstep, hn, -⟩ := advance_eq_through.1 h
  exact advance_eq_through.2 ⟨hhere, name, hstep, hn, hmore⟩

/-- A step depends on what lies at two keys. -/
theorem advance_congr (hhere : s.get? here = t.get? here)
    (hnext : s.get? here = some .directory → ∀ name, step = .enter name →
      s.get? (here ++ [name]) = t.get? (here ++ [name])) :
    s.advance follow here step rest = t.advance follow here step rest := by
  unfold advance
  rw [← hhere]
  split
  · rfl
  · rename_i hdir
    cases step with
    | stay => rfl
    | up => rfl
    | enter name => simp only [hnext hdir name rfl]
  · rfl

/-! ### Steps to where nothing is -/

/-- The outcomes of a walk to a name that no entry has. -/
def LeadsNowhere (x : Except ErrorCode Spot) : Prop :=
  x = .error .notFound ∨ ∃ parent name, x = .ok (.vacant parent name)

theorem leadsNowhere_notFound : LeadsNowhere (.error .notFound) := .inl rfl

theorem leadsNowhere_vacant (parent : Key) (name : String) :
    LeadsNowhere (.ok (.vacant parent name)) := .inr ⟨parent, name, rfl⟩

theorem not_leadsNowhere_entry (k : Key) : ¬ LeadsNowhere (.ok (.entry k)) := by
  rintro (h | ⟨parent, name, h⟩) <;> simp at h

theorem exists_advance_missing : (∃ outcome, s.advance follow here step rest = .ends outcome ∧
      LeadsNowhere outcome) ↔ s.get? here = none ∨ s.get? here = some .directory ∧
        ∃ name, step = .enter name ∧ ¬ nameLimit < name.utf8ByteSize ∧
          s.get? (here ++ [name]) = none := by
  constructor
  · rintro ⟨outcome, h, hnowhere⟩
    unfold advance at h
    split at h
    · rename_i hhere
      exact .inl hhere
    · rename_i hhere
      refine .inr ⟨hhere, ?_⟩
      split at h
      · cases h
      · cases h
      · rename_i name
        split at h
        · cases h
          rcases hnowhere with h | ⟨_, _, h⟩ <;> simp at h
        · rename_i hlimit
          split at h
          · rename_i hn
            exact ⟨name, rfl, hlimit, hn⟩
          · split at h
            · cases h
              exact absurd hnowhere (not_leadsNowhere_entry _)
            · cases h
          · cases h
    · cases h
      rcases hnowhere with h | ⟨_, _, h⟩ <;> simp at h
  · rintro (hhere | ⟨hhere, name, rfl, hlimit, hn⟩)
    · exact ⟨_, by simp only [advance, hhere], leadsNowhere_notFound⟩
    · refine ⟨if rest = [] then .ok (.vacant here name) else .error .notFound, ?_, ?_⟩
      · simp only [advance, hhere, hlimit, if_false, hn]
      · split
        · exact leadsNowhere_vacant _ _
        · exact leadsNowhere_notFound

theorem advance_missing (h : s.advance follow here step rest = .ends outcome)
    (hnowhere : LeadsNowhere outcome) (follow' : Bool) (rest' : List Step) :
    ∃ outcome', s.advance follow' here step rest' = .ends outcome' ∧ LeadsNowhere outcome' :=
  exists_advance_missing.2 (exists_advance_missing.1 ⟨outcome, h, hnowhere⟩)

theorem advance_vacant {name : String} (hhere : s.get? here = some .directory)
    (hlimit : ¬ nameLimit < name.utf8ByteSize) (hn : s.get? (here ++ [name]) = none) (follow : Bool)
    (rest : List Step) :
    ∃ outcome, s.advance follow here (.enter name) rest = .ends outcome ∧ LeadsNowhere outcome :=
  exists_advance_missing.2 (.inr ⟨hhere, name, rfl, hlimit, hn⟩)

/-- In a part of a store, a step is what it is in the store, or leads nowhere. -/
theorem advance_within (hs : t.Within s) : (∃ outcome,
      t.advance follow here step rest = .ends outcome ∧ LeadsNowhere outcome) ∨
    t.advance follow here step rest = s.advance follow here step rest := by
  by_cases hmissing : ∃ outcome,
      t.advance follow here step rest = .ends outcome ∧ LeadsNowhere outcome
  · exact .inl hmissing
  · rw [exists_advance_missing, not_or] at hmissing
    obtain ⟨hthere, hnext⟩ := hmissing
    obtain ⟨node, hnode⟩ := Option.ne_none_iff_exists'.1 hthere
    refine .inr (advance_congr (hnode.trans (hs here node hnode).symm) fun hdir name hstep => ?_)
    cases hn : t.get? (here ++ [name]) with
    | some node => exact (hs _ node hn).symm
    | none =>
      -- a name that is too long has no entry anywhere
      have hlong : nameLimit < name.utf8ByteSize :=
        Decidable.byContradiction fun hlimit => hnext ⟨hdir, name, hstep, hlimit, hn⟩
      cases hn' : s.get? (here ++ [name]) with
      | none => rfl
      | some node' => exact absurd hlong (not_overlong_of_get? hn')

end Store

end VendorTree
