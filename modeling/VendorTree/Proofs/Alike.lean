import VendorTree.Proofs.Survivors

/-!
# Trees of one shape

What a run leaves depends on the names of the entries and on their kinds, and not on what files
hold. Below its directory it depends on nothing but what lies there.
-/

namespace VendorTree

/-- The node without what a file holds. -/
def Node.shape : Node → Node
  | .file _ => .file .empty
  | node => node

@[simp] theorem Node.shape_eq_directory {node : Node} :
    node.shape = .directory ↔ node = .directory := by
  cases node <;> simp [shape]

/-- At the key and below it the same lies in both stores, except for what files hold. -/
def Store.AlikeAt (s t : Store) (base : Key) : Prop :=
  ∀ names, (s.get? (base ++ names)).map Node.shape = (t.get? (base ++ names)).map Node.shape

variable {policies : PolicySet} {rule : PreservationRule} {used names : List String} {base : Key}
  {s s' t t' : Store} {node : Node}

namespace Store.AlikeAt

theorem refl (s : Store) (base : Key) : s.AlikeAt s base := fun _ => rfl

theorem of_entries (h : s.entries.map (fun e => (e.1, e.2.shape)) =
    t.entries.map fun e => (e.1, e.2.shape)) (base : Key) : s.AlikeAt t base := by
  intro names
  have hlookup : ∀ s : Store, (s.entries.map fun e => (e.1, e.2.shape)).lookup (base ++ names) =
      (s.entries.lookup (base ++ names)).map Node.shape :=
    fun s => lookup_map_node (fun _ => Node.shape) _ s.entries
  unfold get?
  split
  · rfl
  · rw [← hlookup, ← hlookup, h]

theorem symm (h : s.AlikeAt t base) : t.AlikeAt s base := fun names => (h names).symm

theorem exists_of_get? {names : List String} (h : s.AlikeAt t base)
    (hn : s.get? (base ++ names) = some node) :
    ∃ other, t.get? (base ++ names) = some other ∧ other.shape = node.shape := by
  have hshape := h names
  rw [hn, Option.map_some] at hshape
  exact Option.map_eq_some_iff.1 hshape.symm

theorem get?_directory_iff (h : s.AlikeAt t base) (names : List String) :
    s.get? (base ++ names) = some .directory ↔ t.get? (base ++ names) = some .directory := by
  have hone : ∀ {s t : Store}, s.AlikeAt t base → s.get? (base ++ names) = some .directory →
      t.get? (base ++ names) = some .directory := by
    intro s t h hdir
    obtain ⟨other, hother, hshape⟩ := h.exists_of_get? hdir
    rwa [Node.shape_eq_directory.1 hshape] at hother
  exact ⟨hone h, hone h.symm⟩

end Store.AlikeAt

theorem PolicySet.takes_eq_of_shape {other : Node} (h : other.shape = node.shape) :
    policies.takes rule used names other = policies.takes rule used names node := by
  cases other <;> cases node <;> simp_all [Node.shape, takes]

namespace Prunes

theorem within (h : Prunes policies rule used base s s') : s'.Within s := by
  intro k node hn
  cases hb : Key.isBelow k base with
  | false => rwa [h.others k hb] at hn
  | true =>
    obtain ⟨names, hne, rfl⟩ := Key.isBelow_iff.1 hb
    by_cases hnode : node = .directory
    · subst hnode
      exact ((h.directories names hne).1 hn).1
    · exact ((h.get?_eq_some_iff hnode).1 hn).1

theorem exists_of_left (h : Prunes policies rule used base s s')
    (h' : Prunes policies rule used base t t') (hst : s.AlikeAt t base) (hnode : node ≠ .directory)
    (hn : s'.get? (base ++ names) = some node) :
    ∃ other, t'.get? (base ++ names) = some other ∧ other.shape = node.shape := by
  obtain ⟨hn, hleft⟩ := (h.get?_eq_some_iff hnode).1 hn
  obtain ⟨other, hother, hshape⟩ := hst.exists_of_get? hn
  have hfile : other ≠ .directory := by
    rintro rfl
    exact hnode (Node.shape_eq_directory.1 hshape.symm)
  refine ⟨other, (h'.get?_eq_some_iff hfile).2 ⟨hother, ?_⟩, hshape⟩
  rwa [PolicySet.takes_eq_of_shape hshape]

theorem exists_alike (h : Prunes policies rule used base s s')
    (h' : Prunes policies rule used base t t') (hst : s.AlikeAt t base)
    (hn : s'.get? (base ++ names) = some node) :
    ∃ other, t'.get? (base ++ names) = some other ∧ other.shape = node.shape := by
  by_cases hnode : node = .directory
  · subst hnode
    refine ⟨.directory, ?_, rfl⟩
    by_cases hne : names = []
    · have hsame : Key.isBelow (base ++ names) base = false := by simp [hne, Key.isBelow]
      rw [h.others _ hsame] at hn
      rw [h'.others _ hsame]
      exact (hst.get?_directory_iff _).1 hn
    · -- what is left in the directory is left of the other tree too
      obtain ⟨hdir, rest, node, hr, hnode, hleft⟩ := (h.directories names hne).1 hn
      rw [List.append_assoc] at hleft
      obtain ⟨other, hother, hshape⟩ := exists_of_left h h' hst hnode hleft
      refine (h'.directories names hne).2
        ⟨(hst.get?_directory_iff _).1 hdir, rest, other, hr, ?_, ?_⟩
      · rintro rfl
        exact hnode (Node.shape_eq_directory.1 hshape.symm)
      · rwa [List.append_assoc]
  · exact exists_of_left h h' hst hnode hn

/-- Runs leave trees of one shape in trees of one shape. -/
theorem alikeAt (h : Prunes policies rule used base s s') (h' : Prunes policies rule used base t t')
    (hst : s.AlikeAt t base) : s'.AlikeAt t' base := by
  intro names
  refine Option.ext fun shape => ?_
  simp only [Option.map_eq_some_iff]
  constructor
  · rintro ⟨node, hn, rfl⟩
    exact exists_alike h h' hst hn
  · rintro ⟨node, hn, rfl⟩
    exact exists_alike h' h hst.symm hn

theorem get?_eq_some_of_same (h : Prunes policies rule used base s s')
    (h' : Prunes policies rule used base t t')
    (hst : ∀ names, s.get? (base ++ names) = t.get? (base ++ names))
    (hn : s'.get? (base ++ names) = some node) : t'.get? (base ++ names) = some node := by
  have halike : s.AlikeAt t base := fun names => by rw [hst names]
  obtain ⟨other, hother, -⟩ := exists_alike h h' halike hn
  have hsource := (h.within _ _ hn).symm.trans ((hst names).trans (h'.within _ _ hother))
  rwa [← Option.some.inj hsource] at hother

theorem get?_congr (h : Prunes policies rule used base s s')
    (h' : Prunes policies rule used base t t')
    (hst : ∀ names, s.get? (base ++ names) = t.get? (base ++ names)) (names : List String) :
    s'.get? (base ++ names) = t'.get? (base ++ names) :=
  Option.ext fun _ => ⟨get?_eq_some_of_same h h' hst,
    get?_eq_some_of_same h' h fun names => (hst names).symm⟩

end Prunes

end VendorTree
