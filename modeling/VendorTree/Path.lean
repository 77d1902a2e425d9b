import VendorTree.Text.Pieces

/-!
# Paths

A path is an anchor and a list of names. Reading a text as a path drops the empty pieces between
slashes and the pieces `.`, and keeps `..`; exactly two leading slashes are an anchor of their own.
Two texts that denote the same list of names below the same anchor are the same path, and a path is
shown in one way only.
-/

namespace VendorTree

/-! ### Names -/

/-- A text that can stand as a name in a path. -/
def IsPathName (n : String) : Prop := n ≠ "" ∧ n ≠ "." ∧ '/' ∉ n.toList

instance (n : String) : Decidable (IsPathName n) :=
  inferInstanceAs (Decidable (n ≠ "" ∧ n ≠ "." ∧ '/' ∉ n.toList))

/-- The names in a text: its pieces between slashes other than the empty one and `.`. -/
def pathNames (s : String) : List String :=
  ((Text.pieces '/' s.toList).map String.ofList).filter fun n => n ≠ "" ∧ n ≠ "."

theorem isPathName_of_mem_pathNames {s n : String} (h : n ∈ pathNames s) : IsPathName n := by
  obtain ⟨hm, hn⟩ := List.mem_filter.1 h
  obtain ⟨p, hp, rfl⟩ := List.mem_map.1 hm
  have hslash := Text.separator_notMem_pieces '/' _ p hp
  simp only [decide_eq_true_eq] at hn
  exact ⟨hn.1, hn.2, by simpa using hslash⟩

/-- The names that remain when each `..` is taken together with the name before it; `before` holds
the names so far, the nearest first. A `..` that no name precedes is dropped below a root and kept
otherwise. -/
def collapseNames (rooted : Bool) (before : List String) : List String → List String
  | [] => before.reverse
  | n :: rest =>
    if n = ".." then
      match before with
      | [] => collapseNames rooted (if rooted then [] else [n]) rest
      | b :: bs => collapseNames rooted (if b = ".." then n :: b :: bs else bs) rest
    else collapseNames rooted (n :: before) rest

theorem mem_of_mem_collapseNames {rooted : Bool} {before names : List String} {n : String}
    (h : n ∈ collapseNames rooted before names) : n ∈ before ∨ n ∈ names := by
  induction names generalizing before with
  | nil => exact .inl (List.mem_reverse.1 h)
  | cons m rest ih =>
    unfold collapseNames at h
    split at h
    · split at h
      · rcases ih h with h | h
        · cases rooted <;> simp_all
        · simp [h]
      · rename_i b bs
        rcases ih h with h | h
        · split at h <;> simp_all
        · simp [h]
    · rcases ih h with h | h
      · rcases List.mem_cons.1 h with h | h <;> simp [h]
      · simp [h]

/-! ### Paths -/

/-- Where a path starts: at the current directory, at the root, or at the root written with two
slashes. -/
inductive Anchor
  | relative
  | root
  | doubleRoot
  deriving DecidableEq, Repr

def Anchor.chars : Anchor → List Char
  | .relative => []
  | .root => ['/']
  | .doubleRoot => ['/', '/']

def Anchor.ofChars : List Char → Anchor
  | '/' :: '/' :: '/' :: _ => .root
  | '/' :: '/' :: _ => .doubleRoot
  | '/' :: _ => .root
  | _ => .relative

/-- A path: an anchor and the names that follow it. -/
structure Path where
  anchor : Anchor
  names : List String
  named : ∀ n ∈ names, IsPathName n
  deriving DecidableEq

namespace Path

/-- The path that a text denotes. -/
def ofString (s : String) : Path where
  anchor := .ofChars s.toList
  names := pathNames s
  named := fun _ => isPathName_of_mem_pathNames

/-- How a path is written. The empty relative path is a dot. -/
def text (p : Path) : String :=
  if p.anchor = .relative ∧ p.names = [] then "."
  else String.ofList (p.anchor.chars ++ ['/'].intercalate (p.names.map String.toList))

/-- A path does not depend on the current directory. -/
def isAbsolute (p : Path) : Bool := p.anchor ≠ .relative

/-- The number of parts of a path. A leading anchor is a part. -/
def size (p : Path) : Nat := p.names.length + if p.isAbsolute then 1 else 0

/-- The last name of a path, or the empty text where there is none. -/
def name (p : Path) : String := p.names.getLast?.getD ""

def parent (p : Path) : Path where
  anchor := p.anchor
  names := p.names.dropLast
  named := fun n h => p.named n (List.mem_of_mem_take (List.dropLast_eq_take ▸ h))

/-- The path continued by the names in a text. A slash in front of the text has no effect. -/
def join (p : Path) (s : String) : Path where
  anchor := p.anchor
  names := p.names ++ pathNames s
  named := by
    intro n h
    rcases List.mem_append.1 h with h | h
    · exact p.named n h
    · exact isPathName_of_mem_pathNames h

/-- The path continued by another one that is relative. -/
def append (p q : Path) : Path where
  anchor := p.anchor
  names := p.names ++ q.names
  named := by
    intro n h
    rcases List.mem_append.1 h with h | h
    · exact p.named n h
    · exact q.named n h

/-- The path with each `..` taken together with the name before it, whatever these names are. -/
def collapsed (p : Path) : Path where
  anchor := p.anchor
  names := collapseNames p.isAbsolute [] p.names
  named := by
    intro n h
    rcases mem_of_mem_collapseNames h with h | h
    · simp at h
    · exact p.named n h

/-- `p` lies strictly below `outer`, going by the names alone. -/
def isBelow (p outer : Path) : Bool :=
  p.anchor = outer.anchor && outer.names.isPrefixOf p.names && p.names.length > outer.names.length

end Path

end VendorTree
