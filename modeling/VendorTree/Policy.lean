/-!
# Policies

The four independent rules by which files of a vendored project are judged superfluous, and sets of
them. No policy implies another; the empty set still leaves the removal of empty directories.
-/

namespace VendorTree

/-- A rule for what a build does not need. -/
inductive Policy
  /-- Vendor trees nested below the project are removed. -/
  | nestedVendor
  /-- Files of packages that the project's user does not import are removed. -/
  | unusedPackages
  /-- Files that are neither source nor legal files are removed. -/
  | nonGo
  /-- Test files are removed. -/
  | goTests
  deriving DecidableEq, Repr

namespace Policy

/-- The policies in the order in which they are applied and shown. -/
def all : List Policy := [.nestedVendor, .unusedPackages, .nonGo, .goTests]

theorem mem_all (p : Policy) : p ∈ all := by cases p <;> decide

def label : Policy → String
  | .nestedVendor => "nested_vendor_dirs"
  | .unusedPackages => "unused_packages"
  | .nonGo => "non_go_files"
  | .goTests => "go_tests"

/-- The keys under which a document chooses a policy, the preferred one first. -/
def keys : Policy → List String
  | .nestedVendor => ["nested-vendor", "nested_vendor"]
  | .unusedPackages => ["unused-packages", "unused_packages"]
  | .nonGo => ["non-go", "non_go"]
  | .goTests => ["go-tests", "go_tests"]

/-- The position of a policy in a set that is given as a number. -/
def bit : Policy → Nat
  | .nestedVendor => 0
  | .unusedPackages => 1
  | .nonGo => 2
  | .goTests => 3

end Policy

structure PolicySet where
  nestedVendor : Bool
  unusedPackages : Bool
  nonGo : Bool
  goTests : Bool
  deriving DecidableEq, Repr

namespace PolicySet

def has (s : PolicySet) : Policy → Bool
  | .nestedVendor => s.nestedVendor
  | .unusedPackages => s.unusedPackages
  | .nonGo => s.nonGo
  | .goTests => s.goTests

def ofTest (f : Policy → Bool) : PolicySet :=
  ⟨f .nestedVendor, f .unusedPackages, f .nonGo, f .goTests⟩

@[simp] theorem has_ofTest (f : Policy → Bool) (p : Policy) : (ofTest f).has p = f p := by
  cases p <;> rfl

theorem ext_has {s t : PolicySet} (h : ∀ p, s.has p = t.has p) : s = t := by
  cases s; cases t
  have h1 := h .nestedVendor
  have h2 := h .unusedPackages
  have h3 := h .nonGo
  have h4 := h .goTests
  simp only [has] at h1 h2 h3 h4
  simp [h1, h2, h3, h4]

def none : PolicySet := ofTest fun _ => false

def all : PolicySet := ofTest fun _ => true

def ofList (ps : List Policy) : PolicySet := ofTest fun p => p ∈ ps

/-- The set whose policies are the set bits of a number. -/
def ofNat (n : Nat) : PolicySet := ofTest fun p => n.testBit p.bit

/-- The policies of a set in their fixed order. -/
def toList (s : PolicySet) : List Policy := Policy.all.filter s.has

def toNat (s : PolicySet) : Nat := (s.toList.map fun p => Nat.pow 2 p.bit).foldr (· + ·) 0

def union (s t : PolicySet) : PolicySet := ofTest fun p => s.has p || t.has p

def inter (s t : PolicySet) : PolicySet := ofTest fun p => s.has p && t.has p

def symmDiff (s t : PolicySet) : PolicySet := ofTest fun p => s.has p != t.has p

def compl (s : PolicySet) : PolicySet := ofTest fun p => !s.has p

def includes (s t : PolicySet) : Bool := Policy.all.all fun p => !t.has p || s.has p

def isEmpty (s : PolicySet) : Bool := s.toList.isEmpty

/-- The names of the policies with commas between them, or `none` for the empty set. -/
def describe (s : PolicySet) : String :=
  if s.isEmpty then "none" else ", ".intercalate (s.toList.map Policy.label)

end PolicySet

end VendorTree
