import VendorTree.FileSystem.Basic

/-!
# Real paths

The path without links that leads where a path leads. Names that no entry has are kept, since a path
may go on below what is there. Where links lead in a circle, the rest of the way is taken as it is
written. Links are told apart by the paths under which they are met, so that a circle that starts at
a relative path is noticed later than one that starts at the root.
-/

namespace VendorTree

/-- Why a path is not followed to its end. -/
inductive Unsettled
  /-- Links lead in a circle, and the path as it is written from there is given. -/
  | circle (written : Path)
  /-- Too many links lead into each other. -/
  | tooDeep

/-- Why a path has no real path. -/
inductive RealPathFault
  /-- The path that is left still leads in a circle. -/
  | circle
  | tooDeep
  | fault (fault : Fault)

namespace Path

/-- The directory above a path without links. -/
def above (p : Path) : Path :=
  match p.names.getLast? with
  | none => if p.isAbsolute then p else p.join ".."
  | some name => if name = ".." then p.join ".." else p.parent

/-- The path continued by the pieces of a text as they are written. A slash in front of them leads
to the root. -/
def continued (p : Path) (pieces : List String) : Path :=
  match pieces with
  | "" :: _ :: _ => Path.ofString ("/".intercalate pieces)
  | _ => p.join ("/".intercalate pieces)

/-- Where the target of a link in the directory `here` starts. -/
def targetStart (target : String) (here : Path) : Path :=
  if target.toList.head? = some '/' then Path.ofString "/" else here

end Path

namespace FileSystem

def linkTarget? (fs : FileSystem) (p : Path) : Option String :=
  match fs.entryAt false p with
  | .ok (_, .link target) => some target
  | _ => none

/-- Take the pieces of a text from `here`. A link on the way is left to `settleLink`. -/
def settleOn (fs : FileSystem) (settleLink : Path → Path → String → Except Unsettled Path) :
    Path → List String → Except Unsettled Path
  | here, [] => .ok here
  | here, piece :: rest =>
    match Step.ofPiece piece with
    | .stay => settleOn fs settleLink here rest
    | .up => settleOn fs settleLink here.above rest
    | .enter name =>
      match fs.linkTarget? (here.join name) with
      | none => settleOn fs settleLink (here.join name) rest
      | some target =>
        match settleLink here (here.join name) target with
        | .ok real => settleOn fs settleLink real rest
        -- a circle is not followed: the pieces behind it are appended as they are written
        | .error (.circle written) => .error (.circle (written.continued rest))
        | .error .tooDeep => .error .tooDeep

/-- Take the pieces of a text, while the links in `opened` are being followed. A link that is met
again leads in a circle; there are at most `links` other ones. -/
def settle (fs : FileSystem) :
    (links : Nat) → (opened : List Path) → Path → List String → Except Unsettled Path
  | 0, _ => settleOn fs fun _ _ _ => .error .tooDeep
  | links + 1, opened => settleOn fs fun here link target =>
    if link ∈ opened then .error (.circle link)
    else settle fs links (link :: opened) (Path.targetStart target here)
      ((Text.pieces '/' target.toList).map String.ofList)

/-- The number of links that may lead into each other. -/
def settleLimit : Nat := 960

/-- The path in which the links on the way are replaced as far as possible. -/
def settled (fs : FileSystem) (p : Path) : Except RealPathFault Path :=
  let start := Path.ofString (if p.isAbsolute then "/" else "")
  match fs.settle settleLimit [] start p.names with
  | .ok real => .ok real
  | .error (.circle written) => .ok written
  | .error .tooDeep => .error .tooDeep

/-- The path without links that leads where a path leads. There is none if it would still lead in a
circle. -/
def realPath (fs : FileSystem) (p : Path) : Except RealPathFault Path := do
  let real := (← (fs.absolute (← fs.settled p)).mapError .fault).collapsed
  match fs.locate true real with
  | .error (.call failure) => if failure.code = .tooManyLinks then throw .circle else return real
  | _ => return real

end FileSystem

end VendorTree
