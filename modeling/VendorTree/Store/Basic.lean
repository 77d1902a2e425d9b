import VendorTree.Path

/-!
# The contents of a file system

A store maps keys to nodes. A key is the list of names that lead from the root of the file system to
an entry; the root itself has the empty key and is always a directory. Every entry lies in a
directory of the store, and no key occurs twice: the operations keep this, so a store is a tree.
-/

namespace VendorTree

/-- The names that lead from the root of the file system to an entry. -/
abbrev Key := List String

/-- Contents are compared by their bytes. -/
instance contentsDecidableEq : DecidableEq ByteArray := ByteArray.instDecidableEq

/-- What an entry of the file system is. -/
inductive Node
  | directory
  | file (contents : ByteArray)
  | link (target : String)
  deriving DecidableEq

/-- The number of bytes that the name of an entry may have. -/
def nameLimit : Nat := 255

/-- A text that an entry can have as its name. -/
def IsEntryName (n : String) : Prop :=
  IsPathName n ∧ n ≠ ".." ∧ '\x00' ∉ n.toList ∧ n.utf8ByteSize ≤ nameLimit

instance (n : String) : Decidable (IsEntryName n) :=
  inferInstanceAs (Decidable (_ ∧ _ ∧ _ ∧ _))

/-- A key lies strictly below another one. -/
def Key.isBelow (k outer : Key) : Bool := outer.isPrefixOf k && k ≠ outer

theorem Key.isBelow_of_dropLast {k outer : Key} (hk : k ≠ [])
    (h : Key.isBelow k.dropLast outer = true) : Key.isBelow k outer = true := by
  simp only [Key.isBelow, Bool.and_eq_true, List.isPrefixOf_iff_prefix, decide_eq_true_eq] at h ⊢
  refine ⟨h.1.trans (List.dropLast_prefix k), ?_⟩
  rintro rfl
  have hlen := h.1.length_le
  have hpos := List.length_pos_iff.2 hk
  rw [List.length_dropLast] at hlen
  omega

/-- The contents of a file system below its root. -/
structure Store where
  entries : List (Key × Node)
  nodup : (entries.map Prod.fst).Nodup
  named : ∀ e ∈ entries, e.1 ≠ [] ∧ ∀ n ∈ e.1, IsEntryName n
  closed : ∀ e ∈ entries, e.1.dropLast ≠ [] → (e.1.dropLast, Node.directory) ∈ entries

namespace Store

def empty : Store where
  entries := []
  nodup := by simp
  named := by simp
  closed := by simp

/-- What lies at a key. -/
def get? (s : Store) (k : Key) : Option Node :=
  if k = [] then some .directory else s.entries.lookup k

/-- The entries of the directory at a key, by name. -/
def children (s : Store) (k : Key) : List (String × Node) :=
  s.entries.filterMap fun e =>
    if e.1.dropLast = k then e.1.getLast?.map fun n => (n, e.2) else none

theorem mem_of_lookup {k : Key} {n : Node} {es : List (Key × Node)} (h : es.lookup k = some n) :
    (k, n) ∈ es := by
  induction es with
  | nil => simp at h
  | cons e es ih =>
    obtain ⟨k', n'⟩ := e
    rw [List.lookup_cons] at h
    split at h
    · rename_i hk
      simp only [beq_iff_eq] at hk
      simp_all
    · exact List.mem_cons_of_mem _ (ih h)

theorem notMem_of_lookup {k : Key} {es : List (Key × Node)} (h : es.lookup k = none) :
    k ∉ es.map Prod.fst := by
  induction es with
  | nil => simp
  | cons e es ih =>
    obtain ⟨k', n'⟩ := e
    rw [List.lookup_cons] at h
    split at h
    · simp at h
    · rename_i hk
      simp only [beq_eq_false_iff_ne, ne_eq] at hk
      simp only [List.map_cons, List.mem_cons, not_or]
      exact ⟨hk, ih h⟩

/-! ### Changes -/

/-- A new entry in the directory `parent`. Nothing happens where it cannot be: if there is no such
directory, the name cannot be used, or an entry has it already. -/
def insert (s : Store) (parent : Key) (name : String) (node : Node) : Store :=
  if h : s.get? parent = some .directory ∧ s.get? (parent ++ [name]) = none ∧ IsEntryName name then
    { entries := (parent ++ [name], node) :: s.entries
      nodup := by
        have hfree : s.entries.lookup (parent ++ [name]) = none := by
          simpa [get?] using h.2.1
        simpa using ⟨by simpa using notMem_of_lookup hfree, s.nodup⟩
      named := by
        intro e he
        rcases List.mem_cons.1 he with rfl | he
        · refine ⟨by simp, fun n hn => ?_⟩
          rcases List.mem_append.1 hn with hn | hn
          -- the root has no names, and any other parent is an entry already
          · rcases List.eq_nil_or_concat parent with hp | ⟨q, x, hp⟩
            · simp [hp] at hn
            · have hdir : s.entries.lookup parent = some .directory := by
                simpa [get?, hp] using h.1
              exact (s.named _ (mem_of_lookup hdir)).2 n hn
          · simp only [List.mem_singleton] at hn
            exact hn ▸ h.2.2
        · exact s.named e he
      closed := by
        intro e he hne
        rcases List.mem_cons.1 he with rfl | he
        · simp only [List.dropLast_concat] at hne ⊢
          have hdir : s.entries.lookup parent = some .directory := by
            simpa [get?, hne] using h.1
          exact List.mem_cons_of_mem _ (mem_of_lookup hdir)
        · exact List.mem_cons_of_mem _ (s.closed e he hne) }
  else s

/-- The store without the entry at `k`. Nothing happens as long as an entry lies in it. -/
def erase (s : Store) (k : Key) : Store :=
  if h : ∀ e ∈ s.entries, e.1.dropLast ≠ k then
    { entries := s.entries.filter fun e => e.1 ≠ k
      nodup := s.nodup.sublist (List.filter_sublist.map _)
      named := fun e he => s.named e (List.mem_filter.1 he).1
      closed := by
        intro e he hne
        have hm := (List.mem_filter.1 he).1
        exact List.mem_filter.2 ⟨s.closed e hm hne, by simpa using h e hm⟩ }
  else s

/-- The store without the entries strictly below `k`. -/
def clear (s : Store) (k : Key) : Store where
  entries := s.entries.filter fun e => !Key.isBelow e.1 k
  nodup := s.nodup.sublist (List.filter_sublist.map _)
  named := fun e he => s.named e (List.mem_filter.1 he).1
  closed := by
    intro e he hne
    obtain ⟨hm, hb⟩ := List.mem_filter.1 he
    refine List.mem_filter.2 ⟨s.closed e hm hne, ?_⟩
    simp only [Bool.not_eq_true'] at hb ⊢
    refine Bool.eq_false_iff.2 fun hc => ?_
    rw [Key.isBelow_of_dropLast (s.named e hm).1 hc] at hb
    simp at hb

end Store

end VendorTree
