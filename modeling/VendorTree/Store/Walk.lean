import VendorTree.Fault
import VendorTree.Store.Basic

/-!
# Following paths

A path is followed step by step from a directory. A link on the way is replaced by its target, and
at most forty links are followed for one path. The last step may lead to a name that no entry has.
A process keeps hold of the directory it is in even when that is removed.
-/

namespace VendorTree

inductive Step
  | stay
  | up
  | enter (name : String)
  deriving DecidableEq

/-- The step that a piece of a path stands for. -/
def Step.ofPiece (piece : String) : Step :=
  if piece = "" ∨ piece = "." then .stay else if piece = ".." then .up else .enter piece

/-- The steps of a text. Where the text ends in a slash, the last step stays in a directory. -/
def Step.ofText (s : String) : List Step :=
  (Text.pieces '/' s.toList).map fun piece => .ofPiece (String.ofList piece)

def Path.steps (p : Path) : List Step := p.names.map Step.ofPiece

/-- The directory that a process is in: the nearest one that is there, and how many directories on
the way from it have been removed. -/
structure Position where
  key : Key
  lost : Nat := 0
  deriving DecidableEq

/-- Where a path leads. -/
inductive Spot
  /-- An entry of the store, or its root. -/
  | entry (key : Key)
  /-- A name that is free in a directory. -/
  | vacant (parent : Key) (name : String)
  /-- A directory that was removed while a process was in it. Nothing is in it or can be put
  there. -/
  | lost
  deriving DecidableEq

namespace Store

/-- The directory at which the target of a link in the directory `here` starts. -/
def targetStart (target : String) (here : Key) : Key :=
  if target.toList.head? = some '/' then [] else here

/-- Take the steps from the directory `here`. The rest of the way from a link on is left to `jump`.
A link at the very end is followed only on demand. -/
def walkOn (s : Store) (follow : Bool) (jump : Key → List Step → Except ErrorCode Spot) :
    Key → List Step → Except ErrorCode Spot
  | here, [] => .ok (.entry here)
  | here, step :: rest =>
    match s.get? here with
    | none => .error .notFound
    | some .directory =>
      match step with
      | .stay => walkOn s follow jump here rest
      | .up => walkOn s follow jump here.dropLast rest
      | .enter name =>
        if nameLimit < name.utf8ByteSize then .error .nameTooLong
        else match s.get? (here ++ [name]) with
          -- only the last name may be one that nothing has yet
          | none => if rest = [] then .ok (.vacant here name) else .error .notFound
          | some (.link target) =>
            if rest = [] ∧ ¬ follow then .ok (.entry (here ++ [name]))
            else jump (targetStart target here) (Step.ofText target ++ rest)
          | some _ => walkOn s follow jump (here ++ [name]) rest
    | some _ => .error .notDirectory

/-- Take the steps and follow at most `links` links on the way. -/
def walk (s : Store) (follow : Bool) : (links : Nat) → Key → List Step → Except ErrorCode Spot
  | 0 => walkOn s follow fun _ _ => .error .tooManyLinks
  | links + 1 => walkOn s follow (walk s follow links)

/-- The number of links that may be followed for one path. -/
def linkLimit : Nat := 40

/-- The steps that are left when steps lead out of a number of removed directories, and nothing if
they do not. -/
def leaveLost : (lost : Nat) → List Step → Except ErrorCode (Option (List Step))
  | 0, steps => .ok (some steps)
  | _ + 1, [] => .ok none
  | lost + 1, .stay :: rest => leaveLost (lost + 1) rest
  | lost + 1, .up :: rest => leaveLost lost rest
  | _ + 1, .enter _ :: _ => .error .notFound

/-- Take the steps from where a process is. -/
def walkFrom (s : Store) (follow : Bool) (p : Position) (steps : List Step) :
    Except ErrorCode Spot := do
  match ← leaveLost p.lost steps with
  | some steps => s.walk follow linkLimit p.key steps
  | none => return .lost

/-- The last directory on a way from the directory `above`. -/
def nearest (s : Store) (above : Key) : List String → Key
  | [] => above
  | n :: rest =>
    if s.get? (above ++ [n]) = some .directory then nearest s (above ++ [n]) rest else above

/-- Where a process is after the store has changed. -/
def keep (s : Store) (p : Position) : Position :=
  let key := s.nearest [] p.key
  { key, lost := p.lost + (p.key.length - key.length) }

end Store

end VendorTree
