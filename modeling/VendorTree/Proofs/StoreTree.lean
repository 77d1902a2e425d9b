import VendorTree.Store.Walk

/-!
# Stores as trees

A store is known by what lies at its keys. What lies above an entry is a directory, and erasing and
clearing keep some of the entries and leave them as they are.
-/

namespace VendorTree

theorem Key.isBelow_iff {k outer : Key} :
    Key.isBelow k outer = true ↔ ∃ rest, rest ≠ [] ∧ k = outer ++ rest := by
  rw [Key.isBelow, Bool.and_eq_true, List.isPrefixOf_iff_prefix, decide_eq_true_eq]
  constructor
  · rintro ⟨⟨rest, rfl⟩, hne⟩
    exact ⟨rest, fun hr => hne (by simp [hr]), rfl⟩
  · rintro ⟨rest, hr, rfl⟩
    exact ⟨⟨rest, rfl⟩, fun he => hr (by simpa using he)⟩

theorem Key.exists_concat {k : Key} (h : k ≠ []) : ∃ outer n, k = outer ++ [n] := by
  obtain ⟨outer, n, rfl⟩ := (List.eq_nil_or_concat k).resolve_left h
  exact ⟨outer, n, List.concat_eq_append⟩

namespace Store

variable {s s' s'' : Store} {k : Key} {node : Node}

/-! ### What lies at a key -/

@[simp] theorem get?_nil (s : Store) : s.get? [] = some .directory := rfl

theorem lookup_of_mem {es : List (Key × Node)} (hd : (es.map Prod.fst).Nodup)
    (h : (k, node) ∈ es) : es.lookup k = some node := by
  induction es with
  | nil => simp at h
  | cons e es ih =>
    obtain ⟨k', n'⟩ := e
    simp only [List.map_cons, List.nodup_cons] at hd
    rcases List.mem_cons.1 h with he | he
    · obtain ⟨rfl, rfl⟩ := Prod.mk.injEq .. ▸ he
      exact List.lookup_cons_self
    · have hk : k ≠ k' := by
        rintro rfl
        exact hd.1 (List.mem_map_of_mem he)
      rw [List.lookup_cons, beq_false_of_ne hk]
      exact ih hd.2 he

theorem get?_eq_some_iff (hk : k ≠ []) : s.get? k = some node ↔ (k, node) ∈ s.entries := by
  rw [get?, if_neg hk]
  exact ⟨mem_of_lookup, lookup_of_mem s.nodup⟩

theorem get?_of_mem (h : (k, node) ∈ s.entries) : s.get? k = some node :=
  (get?_eq_some_iff (s.named _ h).1).2 h

theorem get?_dropLast (hk : k ≠ []) (h : (s.get? k).isSome) :
    s.get? k.dropLast = some .directory := by
  obtain ⟨node, hn⟩ := Option.isSome_iff_exists.1 h
  by_cases hd : k.dropLast = []
  · rw [hd, get?_nil]
  · exact get?_of_mem (s.closed _ ((get?_eq_some_iff hk).1 hn) hd)

theorem get?_above {outer rest : Key} (hr : rest ≠ []) (h : (s.get? (outer ++ rest)).isSome) :
    s.get? outer = some .directory := by
  induction hlen : rest.length generalizing rest with
  | zero => exact absurd (List.length_eq_zero_iff.1 hlen) hr
  | succ n ih =>
    have hup := get?_dropLast (by simp [hr]) h
    rw [List.dropLast_append_of_ne_nil hr] at hup
    by_cases hd : rest.dropLast = []
    · simpa [hd] using hup
    · exact ih hd (by simp [hup]) (by simp [hlen])

theorem get?_of_directory_append {outer rest : Key} (h : s.get? (outer ++ rest) = some .directory) :
    s.get? outer = some .directory := by
  by_cases hr : rest = []
  · rwa [hr, List.append_nil] at h
  · exact get?_above hr (Option.isSome_of_eq_some h)

theorem isEntryName_of_get? (h : (s.get? k).isSome) : ∀ n ∈ k, IsEntryName n := by
  obtain ⟨node, hn⟩ := Option.isSome_iff_exists.1 h
  by_cases hk : k = []
  · simp [hk]
  · exact (s.named _ ((get?_eq_some_iff hk).1 hn)).2

theorem isPathName_of_get? {outer rest : Key} (h : (s.get? (outer ++ rest)).isSome) :
    ∀ n ∈ rest, IsPathName n :=
  fun n hn => (isEntryName_of_get? h n (List.mem_append_right _ hn)).1

theorem mem_children {x : String} : (x, node) ∈ s.children k ↔ s.get? (k ++ [x]) = some node := by
  rw [get?_eq_some_iff (by simp), children, List.mem_filterMap]
  constructor
  · rintro ⟨⟨k', n'⟩, he, hk⟩
    obtain ⟨q, y, rfl⟩ := Key.exists_concat (s.named _ he).1
    simp only [List.dropLast_concat, List.getLast?_concat, Option.map_some,
      Option.ite_none_right_eq_some, Option.some.injEq, Prod.mk.injEq] at hk
    obtain ⟨rfl, rfl, rfl⟩ := hk
    exact he
  · intro he
    exact ⟨_, he, by simp⟩

theorem children_eq_nil_iff : s.children k = [] ↔ ∀ x, s.get? (k ++ [x]) = none := by
  rw [List.eq_nil_iff_forall_not_mem]
  constructor
  · intro h x
    rw [Option.eq_none_iff_forall_ne_some]
    exact fun node hn => h _ (mem_children.2 hn)
  · rintro h ⟨x, node⟩ hx
    rw [mem_children, h x] at hx
    simp at hx

theorem children_eq_nil_of_ne_directory (h : s.get? k ≠ some .directory) : s.children k = [] := by
  rw [children_eq_nil_iff]
  intro x
  rw [← Option.not_isSome_iff_eq_none]
  exact fun hx => h (get?_above (by simp) hx)

/-! ### Parts of a store -/

/-- What lies at a key of `s'` lies there in `s`. -/
def Within (s' s : Store) : Prop := ∀ k node, s'.get? k = some node → s.get? k = some node

theorem Within.trans (h : s''.Within s') (h' : s'.Within s) : s''.Within s :=
  fun k node hn => h' k node (h k node hn)

/-- `s'` holds those entries of `s` whose keys are kept. -/
def Keeps (s s' : Store) (keep : Key → Bool) : Prop :=
  s'.entries = s.entries.filter fun e => keep e.1

theorem Keeps.refl (s : Store) : s.Keeps s fun _ => true :=
  (List.filter_eq_self.2 fun _ _ => rfl).symm

theorem Keeps.trans {keep keep' : Key → Bool} (h : s.Keeps s' keep) (h' : s'.Keeps s'' keep') :
    s.Keeps s'' fun k => keep k && keep' k := by
  rw [Keeps, h', h, List.filter_filter]
  exact List.filter_congr fun e _ => Bool.and_comm ..

theorem Keeps.congr {keep keep' : Key → Bool} (h : s.Keeps s' keep)
    (hk : ∀ k, (s.get? k).isSome → keep k = keep' k) : s.Keeps s' keep' := by
  rw [Keeps, h]
  refine List.filter_congr fun e he => hk _ ?_
  have hnode : s.get? e.1 = some e.2 := get?_of_mem he
  rw [hnode, Option.isSome_some]

theorem Keeps.get?_eq {keep : Key → Bool} (h : s.Keeps s' keep) (hk : k ≠ []) :
    s'.get? k = if keep k then s.get? k else none := by
  ext node
  rw [get?_eq_some_iff hk, h, List.mem_filter]
  split
  · rename_i hkeep
    rw [get?_eq_some_iff hk]
    simp [hkeep]
  · rename_i hkeep
    simp [hkeep]

theorem Keeps.get?_of_kept {keep : Key → Bool} (h : s.Keeps s' keep) (hk : keep k = true) :
    s'.get? k = s.get? k := by
  by_cases hne : k = []
  · rw [hne, get?_nil, get?_nil]
  · rw [h.get?_eq hne, if_pos hk]

theorem Keeps.within {keep : Key → Bool} (h : s.Keeps s' keep) : s'.Within s := by
  intro k node hn
  by_cases hk : k = []
  · simpa [hk] using hn
  · rw [h.get?_eq hk] at hn
    split at hn
    · exact hn
    · simp at hn

theorem ext_entries (h : s.entries = s'.entries) : s = s' := by
  cases s
  cases s'
  simpa using h

/-! ### Erasing and clearing -/

theorem keeps_erase (h : s.children k = []) : s.Keeps (s.erase k) fun x => x ≠ k := by
  have hfree : ∀ e ∈ s.entries, e.1.dropLast ≠ k := by
    rintro ⟨k', n'⟩ he hk
    obtain ⟨q, x, rfl⟩ := Key.exists_concat (s.named _ he).1
    simp only [List.dropLast_concat] at hk
    subst hk
    have hx := children_eq_nil_iff.1 h x
    rw [get?_of_mem he] at hx
    simp at hx
  rw [Keeps, erase, dif_pos hfree]

theorem keeps_clear (s : Store) (k : Key) : s.Keeps (s.clear k) fun x => !Key.isBelow x k := rfl

theorem children_clear (s : Store) (k : Key) : (s.clear k).children k = [] := by
  rw [children_eq_nil_iff]
  intro x
  have hbelow : Key.isBelow (k ++ [x]) k = true := Key.isBelow_iff.2 ⟨[x], by simp, rfl⟩
  rw [(keeps_clear s k).get?_eq (by simp)]
  simp [hbelow]

theorem erase_cases (s : Store) (k : Key) :
    s.Keeps (s.erase k) (fun x => x ≠ k) ∨ s.erase k = s := by
  unfold erase
  split
  · exact .inl rfl
  · exact .inr rfl

theorem erase_within (s : Store) (k : Key) : (s.erase k).Within s := by
  rcases erase_cases s k with h | h
  · exact h.within
  · rw [h]
    exact fun _ _ hn => hn

theorem get?_erase_of_ne {x : Key} (h : x ≠ k) : (s.erase k).get? x = s.get? x := by
  rcases erase_cases s k with hk | hk
  · exact hk.get?_of_kept (by simpa using h)
  · rw [hk]

end Store

end VendorTree
