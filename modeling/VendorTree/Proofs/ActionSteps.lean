import VendorTree.Engine

/-!
# Steps of actions

What a composed action does to a run, from what its first part does to it.
-/

namespace VendorTree

theorem ok_of_toOption {ε α : Type} {x : Except ε α} {a : α} (h : x.toOption = some a) :
    x = .ok a := by
  cases x with
  | error e => simp [Except.toOption] at h
  | ok b => exact congrArg Except.ok (Option.some.inj h)

theorem exists_of_except_bind {ε α β : Type} {x : Except ε α} {f : α → Except ε β} {b : β}
    (h : (x >>= f) = .ok b) : ∃ a, x = .ok a ∧ f a = .ok b := by
  cases x with
  | error e => cases h
  | ok a => exact ⟨a, rfl, h⟩

theorem mapError_eq_ok {ε ε' α : Type} {x : Except ε α} {f : ε → ε'} {a : α} :
    x.mapError f = .ok a ↔ x = .ok a := by
  cases x with
  | error e => exact iff_of_false nofun nofun
  | ok b =>
    show (.ok b : Except ε' α) = .ok a ↔ _
    simp

theorem mapError_eq_error {ε ε' α : Type} {x : Except ε α} {f : ε → ε'} {e' : ε'} :
    x.mapError f = .error e' ↔ ∃ e, x = .error e ∧ f e = e' := by
  cases x with
  | error e =>
    show (.error (f e) : Except ε' α) = .error e' ↔ _
    simp
  | ok b => exact iff_of_false nofun nofun

namespace Action

variable {ε ε' σ α β : Type} {a : Action ε σ α} {f : α → Action ε σ β} {r r' : Run σ}

theorem exists_of_bind_ok {y : β} (h : (a >>= f) r = (.ok y, r')) :
    ∃ x r₁, a r = (.ok x, r₁) ∧ f x r₁ = (.ok y, r') := by
  rcases ha : a r with ⟨_ | x, r₁⟩
  · rw [bind_run_error ha] at h
    simp at h
  · rw [bind_run_ok ha] at h
    exact ⟨x, r₁, rfl, h⟩

theorem bind_run_congr {b : Action ε σ α} (h : a r = b r) (f : α → Action ε σ β) :
    (a >>= f) r = (b >>= f) r := by
  rcases hb : b r with ⟨e | x, r'⟩
  · rw [bind_run_error hb, bind_run_error (h.trans hb)]
  · rw [bind_run_ok hb, bind_run_ok (h.trans hb)]

theorem note_bind_run {f : Unit → Action ε σ β} (source : Source) (event : Event) (r : Run σ) :
    (note source event >>= f) r = f () { r with journal := r.journal ++ [⟨source, event⟩] } := rfl

theorem mapError_run {g : ε → ε'} {x : Except ε α} (h : a r = (x, r')) :
    mapError g a r = (x.mapError g, r') := by
  unfold mapError
  rw [h]
  cases x <;> rfl

theorem run_of_mapError_ok {g : ε → ε'} {x : α} (h : mapError g a r = (.ok x, r')) :
    a r = (.ok x, r') := by
  rcases ha : a r with ⟨e | y, r₁⟩
  · have hfail : mapError g a r = (.error (g e), r₁) := mapError_run ha
    simp [hfail] at h
  · have hvalue : mapError g a r = (.ok y, r₁) := mapError_run ha
    simpa [hvalue] using h

theorem mapError_bind (g : ε → ε') (a : Action ε σ α) (f : α → Action ε σ β) :
    mapError g (a >>= f) = mapError g a >>= fun x => mapError g (f x) := by
  funext r
  rcases ha : a r with ⟨e | x, r₁⟩
  · rw [mapError_run (bind_run_error ha), bind_run_error (mapError_run ha)]
    rfl
  · rw [bind_run_ok (mapError_run ha)]
    unfold mapError
    rw [bind_run_ok ha]

theorem mapError_note (g : ε → ε') (source : Source) (event : Event) (f : Unit → Action ε σ α) :
    mapError g (note source event >>= f) =
      note source event >>= fun u => mapError g (f u) :=
  mapError_bind g (note source event) f

theorem mapError_id (a : Action ε σ α) : mapError (fun e => e) a = a := by
  funext r
  unfold mapError
  rcases a r with ⟨_ | _, _⟩ <;> rfl

theorem query_run (g : σ → Except ε α) (r : Run σ) : query g r = (g r.world, r) := rfl

theorem mapError_query_run {g : σ → Except ε α} {f : ε → ε'} {x : α} (h : g r.world = .ok x) :
    mapError f (query g) r = (.ok x, r) := by
  rw [mapError_run (query_run g r), h]
  rfl

theorem mapError_query_run_error {g : σ → Except ε α} {f : ε → ε'} {e : ε}
    (h : g r.world = .error e) : mapError f (query g) r = (.error (f e), r) := by
  rw [mapError_run (query_run g r), h]
  rfl

theorem unlessMissing_run_ok {a : Action Fault σ Unit} (h : a r = (.ok (), r')) :
    unlessMissing a r = (.ok true, r') := by
  unfold unlessMissing
  rw [h]

theorem unlessMissing_run_error {a : Action Fault σ Unit} {e : Fault} (h : a r = (.error e, r')) :
    unlessMissing a r = if e.isMissing then (.ok false, r') else (.error e, r') := by
  unfold unlessMissing
  rw [h]

/-! ### What an action maintains -/

/-- Whatever comes of the action, it leads from worlds with a property to such worlds. -/
def Maintains (I : σ → Prop) (a : Action ε σ α) : Prop := ∀ r, I r.world → I (a r).2.world

namespace Maintains

variable {I : σ → Prop}

theorem pure (x : α) : Maintains I (Pure.pure x : Action ε σ α) := fun _ h => h

theorem fail (e : ε) : Maintains I (fail e : Action ε σ α) := fun _ h => h

theorem note (source : Source) (event : Event) :
    Maintains I (note source event : Action ε σ Unit) := fun _ h => h

theorem query (g : σ → Except ε α) : Maintains I (query g) := fun _ h => h

theorem bind_of_ok (h : Maintains I a)
    (hf : ∀ r x r', I r.world → a r = (.ok x, r') → I r'.world → I (f x r').2.world) :
    Maintains I (a >>= f) := by
  intro r hr
  have hworld := h r hr
  rcases ha : a r with ⟨e | x, r'⟩
  · rw [ha] at hworld
    rwa [bind_run_error ha]
  · rw [ha] at hworld
    rw [bind_run_ok ha]
    exact hf r x r' hr ha hworld

theorem bind (h : Maintains I a) (hf : ∀ x, Maintains I (f x)) : Maintains I (a >>= f) :=
  h.bind_of_ok fun _ x r' _ _ hr' => hf x r' hr'

theorem mapError (g : ε → ε') (h : Maintains I a) : Maintains I (mapError g a) := by
  intro r hr
  have hworld := h r hr
  rcases ha : a r with ⟨x, r'⟩
  rw [ha] at hworld
  rwa [mapError_run ha]

theorem unlessMissing {a : Action Fault σ Unit} (h : Maintains I a) :
    Maintains I (unlessMissing a) := by
  intro r hr
  have hworld := h r hr
  rcases ha : a r with ⟨e | _, r'⟩
  · rw [ha] at hworld
    rw [unlessMissing_run_error ha]
    split <;> exact hworld
  · rw [ha] at hworld
    rwa [unlessMissing_run_ok ha]

end Maintains

end Action

theorem Tools.prune_run {σ : Type} {t : Tools σ} {root : Path} {l : Listing} {r r' : Run σ}
    (h : t.snapshot root r = (.ok l, r')) (used : List String) (policies : PolicySet) :
    t.prune root used policies r = t.pruneListing l used policies r' :=
  Action.bind_run_ok h

end VendorTree
