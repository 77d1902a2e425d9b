import VendorTree.Proofs.EntryPath
import VendorTree.Sweep

/-!
# The order of a sweep

A sweep takes each directory once, the deepest first, and equally deep ones by their texts. This
puts different paths in one order only, so it does not matter in which order and how often the
directories are given, and what lies below a directory is taken before it.
-/

namespace VendorTree

/-! ### Lists in order -/

/-- Lists without repetitions that are in the same order are equal if they have the same members. -/
theorem eq_of_ordered {α : Type} {r : α → α → Prop} {xs ys : List α}
    (hanti : ∀ a b, a ∈ xs → b ∈ ys → r a b → r b a → a = b) (hx : xs.Pairwise r)
    (hy : ys.Pairwise r) (hxs : xs.Nodup) (hys : ys.Nodup) (hmem : ∀ a, a ∈ xs ↔ a ∈ ys) :
    xs = ys :=
  List.Perm.eq_of_pairwise hanti hx hy ((List.perm_ext_iff_of_nodup hxs hys).2 hmem)

theorem nodup_eraseDups {α : Type} [BEq α] [LawfulBEq α] (xs : List α) : xs.eraseDups.Nodup := by
  induction hlen : xs.length using Nat.strongRecOn generalizing xs with
  | ind n ih =>
    cases xs with
    | nil => simp
    | cons x rest =>
      have hshort : (rest.filter fun y => !y == x).length < n := by
        have hle := List.length_filter_le (fun y => !y == x) rest
        rw [List.length_cons] at hlen
        omega
      rw [List.eraseDups_cons, List.nodup_cons]
      exact ⟨by simp [List.mem_eraseDups], ih _ hshort _ rfl⟩

theorem eraseDups_of_nodup {α : Type} [BEq α] [LawfulBEq α] {xs : List α} (h : xs.Nodup) :
    xs.eraseDups = xs := by
  induction xs with
  | nil => rfl
  | cons x rest ih =>
    obtain ⟨hx, hrest⟩ := List.nodup_cons.1 h
    have hothers : rest.filter (fun y => !y == x) = rest := by
      refine List.filter_eq_self.2 fun y hy => ?_
      have hne : y ≠ x := fun hyx => hx (hyx ▸ hy)
      simp [hne]
    rw [List.eraseDups_cons, hothers, ih hrest]

/-! ### The order of paths -/

theorem mem_sweepOrder {paths : List Path} {p : Path} : p ∈ sweepOrder paths ↔ p ∈ paths := by
  rw [sweepOrder, List.mem_mergeSort, List.mem_eraseDups]

theorem nodup_sweepOrder (paths : List Path) : (sweepOrder paths).Nodup :=
  (List.mergeSort_perm _ _).nodup_iff.2 (nodup_eraseDups paths)

theorem sweptBefore_iff {p q : Path} :
    sweptBefore p q = true ↔ q.size < p.size ∨ p.size = q.size ∧ p.text ≤ q.text := by
  simp [sweptBefore]

theorem sweptBefore_trans (p q r : Path) (h : sweptBefore p q = true)
    (h' : sweptBefore q r = true) : sweptBefore p r = true := by
  rw [sweptBefore_iff] at h h' ⊢
  rcases h with h | ⟨h, ht⟩ <;> rcases h' with h' | ⟨h', ht'⟩
  · left; omega
  · left; omega
  · left; omega
  · exact .inr ⟨h.trans h', String.le_trans ht ht'⟩

theorem sweptBefore_total (p q : Path) : (sweptBefore p q || sweptBefore q p) = true := by
  rw [Bool.or_eq_true, sweptBefore_iff, sweptBefore_iff]
  rcases Nat.lt_trichotomy p.size q.size with h | h | h
  · simp [h]
  · rcases String.le_total p.text q.text with ht | ht
    · exact .inl (.inr ⟨h, ht⟩)
    · exact .inr (.inr ⟨h.symm, ht⟩)
  · simp [h]

theorem sweptBefore_antisymm {p q : Path} (h : sweptBefore p q = true)
    (h' : sweptBefore q p = true) : p = q := by
  rw [sweptBefore_iff] at h h'
  have htexts : p.text ≤ q.text ∧ q.text ≤ p.text := by
    rcases h with h | ⟨h, ht⟩ <;> rcases h' with h' | ⟨h', ht'⟩
    · omega
    · omega
    · omega
    · exact ⟨ht, ht'⟩
  exact Path.text_injective (String.le_antisymm htexts.1 htexts.2)

theorem names_length_le_of_sweptBefore {p q : Path} (hanchor : p.anchor = q.anchor)
    (h : sweptBefore p q = true) : q.names.length ≤ p.names.length := by
  have habs : p.isAbsolute = q.isAbsolute := by rw [Path.isAbsolute, Path.isAbsolute, hanchor]
  rw [sweptBefore_iff, Path.size, Path.size, habs] at h
  omega

/-! ### Sorted paths -/

theorem pairwise_sweepOrder (paths : List Path) :
    (sweepOrder paths).Pairwise fun p q => sweptBefore p q = true :=
  List.pairwise_mergeSort sweptBefore_trans sweptBefore_total _

/-- The paths are in the order of a sweep in one way only. -/
theorem eq_sweepOrder {paths order : List Path} (hnodup : order.Nodup)
    (h : order.Pairwise fun p q => sweptBefore p q = true) (hmem : ∀ p, p ∈ order ↔ p ∈ paths) :
    order = sweepOrder paths :=
  eq_of_ordered (fun _ _ _ _ => sweptBefore_antisymm) h (pairwise_sweepOrder paths) hnodup
    (nodup_sweepOrder paths) fun p => (hmem p).trans mem_sweepOrder.symm

theorem sweepOrder_of_ordered {paths : List Path} (hnodup : paths.Nodup)
    (h : paths.Pairwise fun p q => sweptBefore p q = true) : sweepOrder paths = paths :=
  (eq_sweepOrder hnodup h fun _ => Iff.rfl).symm

theorem sweepOrder_filter (paths : List Path) (keep : Path → Bool) :
    sweepOrder (paths.filter keep) = (sweepOrder paths).filter keep := by
  refine (eq_sweepOrder ((nodup_sweepOrder paths).sublist List.filter_sublist)
    ((pairwise_sweepOrder paths).filter keep) fun p => ?_).symm
  simp only [List.mem_filter, mem_sweepOrder]

/-- The order of a sweep does not depend on the order and the repetitions of the paths. -/
theorem sweepOrder_eq_of_mem_iff {paths paths' : List Path} (h : ∀ p, p ∈ paths' ↔ p ∈ paths) :
    sweepOrder paths' = sweepOrder paths :=
  eq_sweepOrder (nodup_sweepOrder paths') (pairwise_sweepOrder paths')
    fun p => mem_sweepOrder.trans (h p)

/-- What lies below a directory is swept before it. -/
theorem mem_before_of_isBelow {paths before after : List Path} {p q : Path} (hp : p ∈ paths)
    (hbelow : p.isBelow q = true) (horder : sweepOrder paths = before ++ q :: after) :
    p ∈ before := by
  obtain ⟨hanchor, -, hlonger⟩ := Path.isBelow_iff.1 hbelow
  have hsorted := pairwise_sweepOrder paths
  rw [horder, List.pairwise_append, List.pairwise_cons] at hsorted
  have hmem : p ∈ before ++ q :: after := horder ▸ mem_sweepOrder.2 hp
  rcases List.mem_append.1 hmem with hp | hp
  · exact hp
  rcases List.mem_cons.1 hp with rfl | hp
  · exact absurd hlonger (Nat.lt_irrefl _)
  · have hshorter := names_length_le_of_sweptBefore hanchor.symm (hsorted.2.1.1 p hp)
    omega

end VendorTree
