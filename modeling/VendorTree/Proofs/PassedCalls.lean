import VendorTree.Proofs.Calls

/-!
# Calls that reach the system

A call on a path whose text holds no NUL character reaches the system, and if it fails then, it
fails with what the system says.
-/

namespace VendorTree

/-- The call could be passed to the system, whatever came of it. -/
def Passed {α : Type} (x : Except Fault α) : Prop := x ≠ .error .unusable

namespace Passed

variable {α β : Type} {x : Except Fault α} {f : α → Except Fault β}

theorem ok (a : α) : Passed (.ok a) := by
  simp [Passed]

theorem refuse (p : Path) (code : ErrorCode) : Passed (refuse p code : Except Fault α) := by
  simp [Passed, VendorTree.refuse]

/-- What a fault says of a call does not depend on the value that is missed by it. -/
theorem of_error {fault : Fault} (h : Passed (.error fault : Except Fault α)) :
    Passed (.error fault : Except Fault β) := by
  rintro hfails
  obtain rfl := Except.error.inj hfails
  exact h rfl

theorem bind (h : Passed x) (hf : ∀ a, Passed (f a)) : Passed (x >>= f) := by
  cases x with
  | error fault => exact h.of_error
  | ok a => exact hf a

end Passed

namespace FileSystem

variable {fs : FileSystem} {p : Path}

section Passing

variable (hnul : '\x00' ∉ p.text.toList)
include hnul

theorem checkText_passed : Passed p.checkText := by
  rw [Path.checkText, if_neg hnul]
  split
  · exact .refuse p _
  · exact .ok _

theorem entryAt_passed (fs : FileSystem) (follow : Bool) : Passed (fs.entryAt follow p) := by
  have hlocate : Passed (fs.locate follow p) := by
    refine (checkText_passed hnul).bind fun _ => ?_
    split
    · exact .ok _
    · exact .refuse p _
  refine hlocate.bind fun spot => ?_
  cases spot with
  | vacant parent name => exact .refuse p _
  | lost => exact .ok _
  | entry key =>
    simp only
    split
    · exact .ok _
    · exact .refuse p _

theorem target_passed (fs : FileSystem) : Passed (fs.target p) := by
  refine (checkText_passed hnul).bind fun _ => ?_
  split
  · exact .ok _
  · split
    · exact .refuse p _
    · simp only
      split
      · exact .ok _
      · exact .refuse p _
      · split
        · exact .refuse p _
        · exact .ok _
      · exact .ok _
      · exact .ok _
      · exact .refuse p _

theorem openDirectory_passed (fs : FileSystem) : Passed (fs.openDirectory p) := by
  unfold openDirectory
  split
  · exact .refuse p _
  · refine (entryAt_passed hnul fs true).bind fun found => ?_
    split
    · exact .ok _
    · exact .refuse p _

theorem unlink_passed (fs : FileSystem) : Passed (fs.unlink p) := by
  refine (target_passed hnul fs).bind fun target => ?_
  cases target with
  | named dir name =>
    simp only
    split
    · exact .refuse p _
    · exact .refuse p _
    · exact .ok _
  | above => exact .refuse p _
  | same => exact .refuse p _

theorem removeDirectory_passed (fs : FileSystem) : Passed (fs.removeDirectory p) := by
  refine (target_passed hnul fs).bind fun target => ?_
  cases target with
  | named dir name =>
    simp only
    split
    · exact .refuse p _
    · split
      · exact .ok _
      · exact .refuse p _
    · exact .refuse p _
  | above => exact .refuse p _
  | same => exact .refuse p _

theorem holdsEntry_passed (fs : FileSystem) : Passed (fs.holdsEntry p) := by
  have hopen := openDirectory_passed hnul fs
  unfold holdsEntry
  split
  · exact .ok _
  · rename_i hfails
    exact absurd hfails hopen
  · split
    · exact .ok _
    · simp [Passed]

end Passing

/-- A test never fails because its path cannot be passed to the system: the answer is no then. -/
theorem holds_passed (fs : FileSystem) (follow : Bool) (p : Path) (test : Node → Bool) :
    Passed (fs.holds follow p test) := by
  unfold holds
  split
  · exact .ok _
  · exact .ok _
  · split
    · exact .ok _
    · simp [Passed]

theorem removePath_passed (hnul : '\x00' ∉ p.text.toList) (fs : FileSystem) :
    Passed (fs.removePath p) := by
  refine (holds_passed fs true p _).bind fun isDir => ?_
  cases isDir with
  | false => exact unlink_passed hnul fs
  | true =>
    refine (holds_passed fs false p _).bind fun isLink => ?_
    cases isLink with
    | false => exact removeDirectory_passed hnul fs
    | true => exact unlink_passed hnul fs

theorem removeTree_passed (hnul : '\x00' ∉ p.text.toList) (fs : FileSystem) :
    Passed (fs.removeTree p).1 := by
  have hsingle : Passed (fs.isSingle p) :=
    (holds_passed fs false p _).bind fun isLink => by
      cases isLink with
      | false => exact (holds_passed fs true p _).bind fun _ => .ok _
      | true => exact .ok _
  unfold removeTree
  cases hkind : fs.isSingle p with
  | error fault =>
    rw [hkind] at hsingle
    exact hsingle.of_error
  | ok single =>
    cases single with
    | true =>
      have hunlink := unlink_passed hnul fs
      cases hdone : fs.unlink p with
      | error fault =>
        rw [hdone] at hunlink
        exact hunlink.of_error
      | ok fs' => exact .ok _
    | false =>
      have hentry := entryAt_passed hnul fs false
      cases hfound : fs.entryAt false p with
      | error fault =>
        rw [hfound] at hentry
        simpa only [removeContents, hfound] using hentry.of_error
      | ok found =>
        have hremove := removeDirectory_passed hnul
          ((found.1.map fun k => fs.update (fs.store.clear k)).getD fs)
        simp only [removeContents, hfound]
        split
        · exact .ok _
        · rename_i fault hfails
          rw [hfails] at hremove
          exact hremove.of_error

theorem rename_passed {destination : Path} (hsource : '\x00' ∉ p.text.toList)
    (hdestination : '\x00' ∉ destination.text.toList) (fs : FileSystem) :
    Passed (fs.rename p destination) := by
  have hboth : ∀ {x : Except Fault FileSystem}, Passed x → Passed (aboutBoth p destination x) := by
    intro x hx
    unfold aboutBoth
    split
    · simp [Passed]
    · exact hx
  refine hboth ((target_passed hsource fs).bind fun source => ?_)
  refine (target_passed hdestination fs).bind fun place => ?_
  split
  · split
    · exact .refuse p _
    · exact .refuse p _
    · split
      · exact .refuse destination _
      · exact .ok _
  · exact .refuse destination _

end FileSystem

end VendorTree
