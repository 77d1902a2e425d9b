import VendorTree.Proofs.ActionSteps

/-!
# Work that matches

Two actions match if from related worlds they come to related values or to the same failure, and
leave related worlds. What they report may differ. Matching work is put together as the actions are.
-/

namespace VendorTree

/-- Both are values, and these are related, or both are the same failure. -/
inductive Agree {ε α β : Type} (R : α → β → Prop) : Except ε α → Except ε β → Prop
  | ok {x : α} {y : β} (h : R x y) : Agree R (.ok x) (.ok y)
  | error (e : ε) : Agree R (.error e) (.error e)

namespace Agree

variable {ε α β γ : Type} {R : α → β → Prop} {R' : β → γ → Prop} {R'' : α → γ → Prop}

theorem refl (x : Except ε α) : Agree Eq x x := by
  cases x with
  | ok a => exact .ok rfl
  | error e => exact .error e

theorem symm {x : Except ε α} {y : Except ε β} (h : Agree R x y) :
    Agree (fun b a => R a b) y x := by
  cases h with
  | ok hxy => exact .ok hxy
  | error e => exact .error e

theorem trans {x : Except ε α} {y : Except ε β} {z : Except ε γ} (h : Agree R x y)
    (h' : Agree R' y z) (hcomp : ∀ a b c, R a b → R' b c → R'' a c) : Agree R'' x z := by
  cases h with
  | ok hxy =>
    cases h' with
    | ok hyz => exact .ok (hcomp _ _ _ hxy hyz)
  | error e =>
    cases h' with
    | error => exact .error e

end Agree

/-- From related worlds the actions come to outcomes that agree and leave related worlds. -/
def Matches {ε σ τ α β : Type} (S : σ → τ → Prop) (R : α → β → Prop) (a : Action ε σ α)
    (b : Action ε τ β) : Prop :=
  ∀ r r', S r.world r'.world → Agree R (a r).1 (b r').1 ∧ S (a r).2.world (b r').2.world

/-- The action comes to the value and leaves a world that is related to the same worlds as
before. -/
def ComesTo {ε σ τ α : Type} (S : σ → τ → Prop) (value : α) (a : Action ε σ α) : Prop :=
  ∀ r w, S r.world w → (a r).1 = .ok value ∧ S (a r).2.world w

theorem ComesTo.mapError {ε ε' σ τ α : Type} {S : σ → τ → Prop} {value : α} {a : Action ε σ α}
    (k : ε → ε') (h : ComesTo S value a) : ComesTo S value (Action.mapError k a) := by
  intro r w hs
  obtain ⟨hvalue, hworlds⟩ := h r w hs
  rcases ha : a r with ⟨x, r'⟩
  rw [ha] at hvalue hworlds
  simp only at hvalue
  subst hvalue
  rw [Action.mapError_run ha]
  exact ⟨rfl, hworlds⟩

namespace Matches

variable {ε ε' σ τ α β α' β' : Type} {S : σ → τ → Prop} {R : α → β → Prop} {R' : α' → β' → Prop}
  {a : Action ε σ α} {b : Action ε τ β} {f : α → Action ε σ α'} {g : β → Action ε τ β'}

theorem pure {x : α} {y : β} (h : R x y) :
    Matches S R (Pure.pure x : Action ε σ α) (Pure.pure y) :=
  fun _ _ hs => ⟨.ok h, hs⟩

theorem onWorld (f : σ → Except ε α × σ) :
    Matches Eq Eq (Action.onWorld f) (Action.onWorld f) := by
  intro r r' hworld
  unfold Action.onWorld
  rw [hworld]
  exact ⟨Agree.refl _, rfl⟩

theorem fail (e : ε) : Matches S R (Action.fail e : Action ε σ α) (Action.fail e) :=
  fun _ _ hs => ⟨.error e, hs⟩

theorem note_left {f : Unit → Action ε σ α} (source : Source) (event : Event)
    (h : Matches S R (f ()) b) : Matches S R (Action.note source event >>= f) b :=
  fun r r' hs => h { r with journal := r.journal ++ [⟨source, event⟩] } r' hs

theorem note_right {g : Unit → Action ε τ β} (source : Source) (event : Event)
    (h : Matches S R a (g ())) : Matches S R a (Action.note source event >>= g) :=
  fun r r' hs => h r { r' with journal := r'.journal ++ [⟨source, event⟩] } hs

theorem note {f : Unit → Action ε σ α} {g : Unit → Action ε τ β} {source source' : Source}
    {event event' : Event} (h : Matches S R (f ()) (g ())) :
    Matches S R (Action.note source event >>= f) (Action.note source' event' >>= g) :=
  note_left _ _ (note_right _ _ h)

/-- Work that only one side does, and that comes to a known value, may be left out. -/
theorem bind_left {value : α} {b : Action ε τ β'} (h : ComesTo S value a)
    (hf : Matches S R' (f value) b) : Matches S R' (a >>= f) b := by
  intro r r' hs
  obtain ⟨hvalue, hworlds⟩ := h r r'.world hs
  rcases ha : a r with ⟨x, r₁⟩
  rw [ha] at hvalue hworlds
  simp only at hvalue
  subst hvalue
  rw [Action.bind_run_ok ha]
  exact hf r₁ r' hworlds

theorem bind (h : Matches S R a b) (hf : ∀ x y, R x y → Matches S R' (f x) (g y)) :
    Matches S R' (a >>= f) (b >>= g) := by
  intro r r' hs
  obtain ⟨hagree, hworlds⟩ := h r r' hs
  rcases ha : a r with ⟨x, r₁⟩
  rcases hb : b r' with ⟨y, r₁'⟩
  rw [ha, hb] at hagree hworlds
  cases hagree with
  | ok hxy =>
    rw [Action.bind_run_ok ha, Action.bind_run_ok hb]
    exact hf _ _ hxy r₁ r₁' hworlds
  | error e =>
    rw [Action.bind_run_error ha, Action.bind_run_error hb]
    exact ⟨.error e, hworlds⟩

theorem mapError (k : ε → ε') (h : Matches S R a b) :
    Matches S R (Action.mapError k a) (Action.mapError k b) := by
  intro r r' hs
  obtain ⟨hagree, hworlds⟩ := h r r' hs
  rcases ha : a r with ⟨x, r₁⟩
  rcases hb : b r' with ⟨y, r₁'⟩
  rw [ha, hb] at hagree hworlds
  rw [Action.mapError_run ha, Action.mapError_run hb]
  cases hagree with
  | ok hxy => exact ⟨.ok hxy, hworlds⟩
  | error e => exact ⟨.error _, hworlds⟩

theorem unlessMissing {a : Action Fault σ Unit} {b : Action Fault τ Unit}
    (h : Matches S Eq a b) : Matches S Eq (Action.unlessMissing a) (Action.unlessMissing b) := by
  intro r r' hs
  obtain ⟨hagree, hworlds⟩ := h r r' hs
  rcases ha : a r with ⟨x, r₁⟩
  rcases hb : b r' with ⟨y, r₁'⟩
  rw [ha, hb] at hagree hworlds
  cases hagree with
  | ok hxy =>
    rw [Action.unlessMissing_run_ok ha, Action.unlessMissing_run_ok hb]
    exact ⟨.ok rfl, hworlds⟩
  | error e =>
    rw [Action.unlessMissing_run_error ha, Action.unlessMissing_run_error hb]
    cases e.isMissing with
    | true => exact ⟨.ok rfl, hworlds⟩
    | false => exact ⟨.error e, hworlds⟩

end Matches

end VendorTree
