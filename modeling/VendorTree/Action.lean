import VendorTree.Fault
import VendorTree.Record

/-!
# Actions

A step of work on a world of some kind: it may fail, and whether it fails or not it leaves the world
and the journal as they are by then. The world is a parameter, so that the same work runs on a file
system and on a world that only notes what it is asked.
-/

namespace VendorTree

/-- The world that actions work on, and what they reported so far, oldest first. -/
structure Run (σ : Type) where
  world : σ
  journal : List Record

/-- A step of work that may fail with an `ε`. -/
def Action (ε σ α : Type) : Type := Run σ → Except ε α × Run σ

namespace Action

variable {ε ε' σ α β : Type}

instance : Monad (Action ε σ) where
  pure a := fun r => (.ok a, r)
  bind a f := fun r => match a r with
    | (.ok x, r') => f x r'
    | (.error e, r') => (.error e, r')

section Steps

variable {a : Action ε σ α} {f : α → Action ε σ β} {r r' : Run σ}

theorem pure_run (x : α) (r : Run σ) : (pure x : Action ε σ α) r = (.ok x, r) := rfl

theorem bind_run_ok {x : α} (h : a r = (.ok x, r')) : (a >>= f) r = f x r' := by
  show (match a r with | (.ok x, r') => f x r' | (.error e, r') => (.error e, r')) = f x r'
  rw [h]

theorem bind_run_error {e : ε} (h : a r = (.error e, r')) : (a >>= f) r = (.error e, r') := by
  show (match a r with | (.ok x, r') => f x r' | (.error e, r') => (.error e, r')) = (.error e, r')
  rw [h]

end Steps

instance : LawfulMonad (Action ε σ) := LawfulMonad.mk' _
  (by
    intro α x
    funext r
    change (match x r with | (.ok y, r') => _ | (.error e, r') => _) = _
    rcases h : x r with ⟨_ | _, _⟩ <;> rfl)
  (fun _ _ => rfl)
  (by
    intro α β γ x f g
    funext r
    change (match (match x r with | (.ok y, r') => f y r' | (.error e, r') => _) with
      | (.ok y, r') => _ | (.error e, r') => _) =
      (match x r with | (.ok y, r') => _ | (.error e, r') => _)
    rcases h : x r with ⟨_ | _, _⟩ <;> rfl)

def fail (e : ε) : Action ε σ α := fun r => (.error e, r)

def note (source : Source) (event : Event) : Action ε σ Unit :=
  fun r => (.ok (), { r with journal := r.journal ++ [⟨source, event⟩] })

def onWorld (f : σ → Except ε α × σ) : Action ε σ α :=
  fun r => match f r.world with
    | (x, w) => (x, { r with world := w })

/-- Look something up in the world and leave it as it is. -/
def query (f : σ → Except ε α) : Action ε σ α := onWorld fun w => (f w, w)

/-- The same work with its failure seen in another way. -/
def mapError (f : ε → ε') (a : Action ε σ α) : Action ε' σ α :=
  fun r => match a r with
    | (.ok x, r') => (.ok x, r')
    | (.error e, r') => (.error (f e), r')

/-- Do the work unless the path it is about is missing, and say whether it was done. Any other
failure stands. -/
def unlessMissing (a : Action Fault σ Unit) : Action Fault σ Bool :=
  fun r => match a r with
    | (.ok _, r') => (.ok true, r')
    | (.error e, r') => if e.isMissing then (.ok false, r') else (.error e, r')

end Action

end VendorTree
