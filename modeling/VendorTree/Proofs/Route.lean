import VendorTree.Proofs.WalkSteps

/-!
# Where paths lead

A path that leads to an entry in a part of a store leads to the same entry in the whole store. Below
a directory, the names of an entry lead to it step by step, and to nothing once the entry is gone.
-/

namespace VendorTree.Store

variable {s s' : Store}

theorem walkFrom_of_leave {follow : Bool} {p : Position} {a rest : List Step}
    (h : leaveLost p.lost a = .ok (some rest)) :
    s.walkFrom follow p a = s.walk follow linkLimit p.key rest := by
  rw [walkFrom, h]
  rfl

/-- A path that leads somewhere leads out of the removed directories first, or stays in one. -/
theorem leave_of_walkFrom {follow : Bool} {p : Position} {a : List Step} {spot : Spot}
    (h : s.walkFrom follow p a = .ok spot) :
    (∃ rest, leaveLost p.lost a = .ok (some rest) ∧
      s.walk follow linkLimit p.key rest = .ok spot) ∨
    leaveLost p.lost a = .ok none ∧ spot = .lost := by
  cases hlost : leaveLost p.lost a with
  | error code =>
    rw [walkFrom, hlost] at h
    cases h
  | ok rest? =>
    cases rest? with
    | none =>
      rw [walkFrom, hlost] at h
      exact .inr ⟨rfl, (Except.ok.inj h).symm⟩
    | some rest =>
      rw [walkFrom_of_leave hlost] at h
      exact .inl ⟨rest, rfl, h⟩

theorem walkFrom_of_notLost (s : Store) (follow : Bool) (here : Key) (steps : List Step) :
    s.walkFrom follow ⟨here, 0⟩ steps = s.walk follow linkLimit here steps := by
  have hlost : leaveLost 0 steps = .ok (some steps) := by cases steps <;> rfl
  exact walkFrom_of_leave hlost

theorem walk_eq_walkOn (s : Store) (follow : Bool) (links : Nat) :
    ∃ jump, s.walk follow links = s.walkOn follow jump := by
  cases links with
  | zero => exact ⟨_, rfl⟩
  | succ links => exact ⟨_, rfl⟩

/-! ### Continuing a walk -/

theorem walkOn_append {follow : Bool} {jump jump' : Key → List Step → Except ErrorCode Spot}
    {k : Key} {b : List Step} {P : Except ErrorCode Spot → Prop} (hb : b ≠ [])
    (hjump : ∀ here a, jump here a = .ok (.entry k) → P (jump' here (a ++ b)))
    (hend : P (s.walkOn follow jump' k b)) {a : List Step} {here : Key}
    (h : s.walkOn true jump here a = .ok (.entry k)) :
    P (s.walkOn follow jump' here (a ++ b)) := by
  induction a generalizing here with
  | nil =>
    obtain rfl : here = k := Spot.entry.inj (Except.ok.inj h)
    exact hend
  | cons step rest ih =>
    rw [List.cons_append]
    cases hstep : s.advance true here step rest with
    | onward next =>
      rw [walkOn_of_onward hstep] at h
      rw [walkOn_of_onward (advance_onward hstep follow (rest ++ b))]
      exact ih h
    | through target =>
      rw [walkOn_of_through hstep] at h
      rw [walkOn_of_through (advance_through hstep (.inl (by simp [hb]))), ← List.append_assoc]
      exact hjump _ _ h
    | ends outcome =>
      rw [walkOn_of_ends hstep] at h
      subst h
      obtain ⟨-, -, hfollow, -⟩ := advance_eq_entry.1 hstep
      cases hfollow

/-- A walk that leads to an entry can be continued from there, with the links that are left. -/
theorem walk_append {follow : Bool} {links : Nat} {here k : Key} {a b : List Step}
    {P : Except ErrorCode Spot → Prop} (hb : b ≠ [])
    (h : s.walk true links here a = .ok (.entry k))
    (hend : ∀ links, P (s.walk follow links k b)) : P (s.walk follow links here (a ++ b)) := by
  -- a link on the way uses up one of the links that are left
  induction links generalizing here a with
  | zero => exact walkOn_append hb (by simp) (hend 0) h
  | succ links ih => exact walkOn_append hb (fun _ _ hj => ih hj) (hend (links + 1)) h

/-! ### Parts of a store -/

/-- The entries of `s'` are those of `s`, apart from files away from `k`. -/
def WithinUpTo (s' s : Store) (k : Key) : Prop :=
  ∀ x node, s'.get? x = some node →
    s.get? x = some node ∨ x ≠ k ∧ ∃ contents, node = .file contents

theorem WithinUpTo.directory {k x : Key} (hs : s'.WithinUpTo s k)
    (h : s'.get? x = some .directory) : s.get? x = some .directory := by
  rcases hs x _ h with h | ⟨_, contents, h⟩
  · exact h
  · simp at h

theorem WithinUpTo.link {k x : Key} {target : String} (hs : s'.WithinUpTo s k)
    (h : s'.get? x = some (.link target)) : s.get? x = some (.link target) := by
  rcases hs x _ h with h | ⟨_, contents, h⟩
  · exact h
  · simp at h

theorem walkOn_file {follow : Bool} {jump : Key → List Step → Except ErrorCode Spot}
    {k x : Key} {contents : ByteArray} (hfile : s.get? x = some (.file contents)) {a : List Step}
    (h : s.walkOn follow jump x a = .ok (.entry k)) : x = k := by
  cases a with
  | nil => simpa [walkOn] using h
  | cons step rest => simp [walkOn, hfile] at h

theorem walkOn_withinUpTo {follow : Bool} {jump jump' : Key → List Step → Except ErrorCode Spot}
    {k : Key} (hs : s'.WithinUpTo s k)
    (hjump : ∀ here a, jump here a = .ok (.entry k) → jump' here a = .ok (.entry k))
    {a : List Step} {here : Key} (h : s'.walkOn follow jump here a = .ok (.entry k)) :
    s.walkOn follow jump' here a = .ok (.entry k) := by
  induction a generalizing here with
  | nil => exact h
  | cons step rest ih =>
    cases hstep : s'.advance follow here step rest with
    | onward next =>
      rw [walkOn_of_onward hstep] at h
      obtain ⟨hhere, hto⟩ := advance_eq_onward.1 hstep
      have hsame : s.advance follow here step rest = .onward next := by
        refine advance_eq_onward.2 ⟨hs.directory hhere, ?_⟩
        rcases hto with hstay | hup | ⟨name, node, hname, hn, hnode, rfl⟩
        · exact .inl hstay
        · exact .inr (.inl hup)
        · refine .inr (.inr ⟨name, node, hname, ?_, hnode, rfl⟩)
          rcases hs _ _ hn with hn' | ⟨hne, contents, rfl⟩
          · exact hn'
          -- a file that is new ends the walk, which ends elsewhere
          · exact absurd (walkOn_file hn h) hne
      rw [walkOn_of_onward hsame]
      exact ih h
    | through target =>
      rw [walkOn_of_through hstep] at h
      obtain ⟨hhere, name, hname, hlink, hmore⟩ := advance_eq_through.1 hstep
      have hsame : s.advance follow here step rest = .through target :=
        advance_eq_through.2 ⟨hs.directory hhere, name, hname, hs.link hlink, hmore⟩
      rw [walkOn_of_through hsame]
      exact hjump _ _ h
    | ends outcome =>
      rw [walkOn_of_ends hstep] at h
      subst h
      obtain ⟨hhere, hnil, hfollow, name, target, hname, hlink, hk⟩ := advance_eq_entry.1 hstep
      exact walkOn_of_ends (advance_eq_entry.2
        ⟨hs.directory hhere, hnil, hfollow, name, target, hname, hs.link hlink, hk⟩)

/-- What a path leads to in spite of further files, it leads to without them. -/
theorem walk_withinUpTo {follow : Bool} {links : Nat} {here k : Key} {a : List Step}
    (hs : s'.WithinUpTo s k) (h : s'.walk follow links here a = .ok (.entry k)) :
    s.walk follow links here a = .ok (.entry k) := by
  induction links generalizing here a with
  | zero => exact walkOn_withinUpTo hs (by simp) h
  | succ links ih => exact walkOn_withinUpTo hs (fun _ _ hj => ih hj) h

/-- What a path leads to in a part of a store, it leads to in the store. -/
theorem walk_within {follow : Bool} {links : Nat} {here k : Key} {a : List Step}
    (hs : s'.Within s) (h : s'.walk follow links here a = .ok (.entry k)) :
    s.walk follow links here a = .ok (.entry k) :=
  walk_withinUpTo (fun x node hn => .inl (hs x node hn)) h

/-! ### Entering names -/

theorem walk_enter_found {follow : Bool} {links : Nat} {here : Key} {names : List String}
    {node : Node} (h : s.get? (here ++ names) = some node)
    (hnode : names ≠ [] → (∀ target, node ≠ .link target) ∨ follow = false) :
    s.walk follow links here (names.map Step.enter) = .ok (.entry (here ++ names)) := by
  obtain ⟨jump, hjump⟩ := walk_eq_walkOn s follow links
  rw [hjump]
  induction names generalizing here with
  | nil => simp [walkOn]
  | cons n rest ih =>
    have hsome : (s.get? (here ++ n :: rest)).isSome := by simp [h]
    have hhere : s.get? here = some .directory := get?_above (by simp) hsome
    have hnext : here ++ [n] ++ rest = here ++ n :: rest := by simp
    rw [List.map_cons]
    cases rest with
    | nil =>
      rcases hnode (by simp) with hnolink | rfl
      · exact walkOn_of_onward (advance_enter hhere h hnolink)
      · cases node with
        | directory => exact walkOn_of_onward (advance_enter hhere h (by simp))
        | file contents => exact walkOn_of_onward (advance_enter hhere h (by simp))
        | link target =>
          exact walkOn_of_ends (advance_eq_entry.2 ⟨hhere, rfl, rfl, n, target, rfl, h, rfl⟩)
    | cons m rest =>
      have hdir : s.get? (here ++ [n]) = some .directory := by
        rw [← hnext] at hsome
        exact get?_above (by simp) hsome
      rw [walkOn_of_onward (advance_enter hhere hdir (by simp)), ← hnext]
      exact ih (by rw [hnext, h]) fun _ => hnode (by simp)

/-- Names of directories are entered one by one, and the rest of the way starts in the last one. -/
theorem walk_enter_append {follow : Bool} {links : Nat} {here : Key} {names : List String}
    (h : s.get? (here ++ names) = some .directory) (rest : List Step) :
    s.walk follow links here (names.map Step.enter ++ rest) =
      s.walk follow links (here ++ names) rest := by
  obtain ⟨jump, hjump⟩ := walk_eq_walkOn s follow links
  rw [hjump]
  induction names generalizing here with
  | nil => rw [List.append_nil, List.map_nil, List.nil_append]
  | cons n names ih =>
    have hnext : here ++ [n] ++ names = here ++ n :: names := by simp
    have hsome : (s.get? (here ++ n :: names)).isSome := Option.isSome_of_eq_some h
    have hhere : s.get? here = some .directory := get?_above (by simp) hsome
    have hdir : s.get? (here ++ [n]) = some .directory := get?_of_directory_append (hnext ▸ h)
    rw [List.map_cons, List.cons_append, walkOn_of_onward (advance_enter hhere hdir (by simp)),
      ih (by rw [hnext, h]), hnext]

theorem walkOn_ne_lost {follow : Bool} {jump : Key → List Step → Except ErrorCode Spot}
    (hjump : ∀ here a, jump here a ≠ .ok .lost) (here : Key) (a : List Step) :
    s.walkOn follow jump here a ≠ .ok .lost := by
  induction a generalizing here with
  | nil => simp [walkOn]
  | cons step rest ih =>
    cases hstep : s.advance follow here step rest with
    | onward next =>
      rw [walkOn_of_onward hstep]
      exact ih next
    | through target =>
      rw [walkOn_of_through hstep]
      exact hjump _ _
    | ends outcome =>
      rw [walkOn_of_ends hstep]
      rintro rfl
      exact advance_ne_lost hstep

/-- Only a process that has lost its directory comes to a lost one. -/
theorem walk_ne_lost (follow : Bool) (links : Nat) (here : Key) (a : List Step) :
    s.walk follow links here a ≠ .ok .lost := by
  induction links generalizing here a with
  | zero => exact walkOn_ne_lost (fun _ _ => by simp) here a
  | succ links ih => exact walkOn_ne_lost (fun here a => ih here a) here a

theorem walkOn_append_missing {follow : Bool} {jump jump' : Key → List Step → Except ErrorCode Spot}
    {b : List Step} (hb : follow = true ∨ b ≠ [])
    (hjump : ∀ here a, LeadsNowhere (jump here a) → LeadsNowhere (jump' here (a ++ b)))
    {a : List Step} {here : Key} (h : LeadsNowhere (s.walkOn true jump here a)) :
    LeadsNowhere (s.walkOn follow jump' here (a ++ b)) := by
  induction a generalizing here with
  | nil => exact absurd h (not_leadsNowhere_entry here)
  | cons step rest ih =>
    rw [List.cons_append]
    cases hstep : s.advance true here step rest with
    | onward next =>
      rw [walkOn_of_onward hstep] at h
      rw [walkOn_of_onward (advance_onward hstep follow (rest ++ b))]
      exact ih h
    | through target =>
      rw [walkOn_of_through hstep] at h
      have hmore : rest ++ b ≠ [] ∨ follow = true :=
        hb.symm.imp_left fun hne hnil => hne (List.append_eq_nil_iff.1 hnil).2
      rw [walkOn_of_through (advance_through hstep hmore), ← List.append_assoc]
      exact hjump _ _ h
    | ends outcome =>
      rw [walkOn_of_ends hstep] at h
      obtain ⟨outcome', hstep', hnowhere⟩ := advance_missing hstep h follow (rest ++ b)
      rwa [walkOn_of_ends hstep']

/-- Where a path leads nowhere, so does every path that continues it. -/
theorem walk_append_missing {follow : Bool} {links : Nat} {here : Key} {a b : List Step}
    (hb : follow = true ∨ b ≠ []) (h : LeadsNowhere (s.walk true links here a)) :
    LeadsNowhere (s.walk follow links here (a ++ b)) := by
  induction links generalizing here a with
  | zero =>
    refine walkOn_append_missing hb (fun _ _ hj => ?_) h
    rcases hj with hj | ⟨_, _, hj⟩ <;> simp at hj
  | succ links ih => exact walkOn_append_missing hb (fun _ _ hj => ih hj) h

theorem leaveLost_append {lost : Nat} {a rest : List Step} (b : List Step)
    (h : leaveLost lost a = .ok (some rest)) :
    leaveLost lost (a ++ b) = .ok (some (rest ++ b)) := by
  induction a generalizing lost with
  | nil => cases lost <;> simp_all [leaveLost]
  | cons step a ih => cases lost <;> cases step <;> simp_all [leaveLost]

theorem leaveLost_append_error {lost : Nat} {a : List Step} {code : ErrorCode} (b : List Step)
    (h : leaveLost lost a = .error code) : leaveLost lost (a ++ b) = .error code := by
  induction a generalizing lost with
  | nil => cases lost <;> simp_all [leaveLost]
  | cons step a ih => cases lost <;> cases step <;> simp_all [leaveLost]

theorem walkFrom_append_of {follow : Bool} {p : Position} {k : Key} {a b : List Step}
    {P : Except ErrorCode Spot → Prop} (hb : b ≠ []) (h : s.walkFrom true p a = .ok (.entry k))
    (hend : ∀ links, P (s.walk follow links k b)) : P (s.walkFrom follow p (a ++ b)) := by
  rcases leave_of_walkFrom h with ⟨rest, hleave, hwalk⟩ | ⟨-, hspot⟩
  · rw [walkFrom_of_leave (leaveLost_append b hleave)]
    exact walk_append hb hwalk hend
  · cases hspot

theorem walkFrom_append {follow : Bool} {p : Position} {k : Key} {a b : List Step}
    {x : Except ErrorCode Spot} (hb : b ≠ []) (h : s.walkFrom true p a = .ok (.entry k))
    (hend : ∀ links, s.walk follow links k b = x) : s.walkFrom follow p (a ++ b) = x :=
  walkFrom_append_of (P := (· = x)) hb h hend

theorem walkFrom_withinUpTo {follow : Bool} {p : Position} {k : Key} {a : List Step}
    (hs : s'.WithinUpTo s k) (h : s'.walkFrom follow p a = .ok (.entry k)) :
    s.walkFrom follow p a = .ok (.entry k) := by
  rcases leave_of_walkFrom h with ⟨rest, hleave, hwalk⟩ | ⟨-, hspot⟩
  · rw [walkFrom_of_leave hleave]
    exact walk_withinUpTo hs hwalk
  · cases hspot

/-- Whether a path stays in a lost directory does not depend on the store. -/
theorem walkFrom_lost {follow : Bool} {p : Position} {a : List Step}
    (h : s'.walkFrom follow p a = .ok .lost) : s.walkFrom follow p a = .ok .lost := by
  rcases leave_of_walkFrom h with ⟨rest, -, hwalk⟩ | ⟨hstays, -⟩
  · exact absurd hwalk (walk_ne_lost follow linkLimit p.key rest)
  · rw [walkFrom, hstays]
    rfl

theorem walkFrom_continue_missing {follow : Bool} {p : Position} {a b : List Step}
    (hb : follow = true ∨ b ≠ []) (h : LeadsNowhere (s.walkFrom true p a)) :
    LeadsNowhere (s.walkFrom follow p (a ++ b)) := by
  unfold walkFrom at h ⊢
  cases hlost : leaveLost p.lost a with
  | error code =>
    rw [hlost] at h
    rw [leaveLost_append_error b hlost]
    have hcode : LeadsNowhere (.error code) := h
    exact hcode
  | ok rest? =>
    rw [hlost] at h
    cases rest? with
    | none =>
      rcases h with h | ⟨_, _, h⟩ <;> simp [pure, Except.pure, bind, Except.bind] at h
    | some rest =>
      rw [leaveLost_append b hlost]
      exact walk_append_missing hb h

theorem walkFrom_append_missing {p : Position} {a : List Step} (b : List Step)
    (h : LeadsNowhere (s.walkFrom true p a)) : LeadsNowhere (s.walkFrom true p (a ++ b)) :=
  walkFrom_continue_missing (.inl rfl) h

theorem walk_enter_missing {follow : Bool} {links : Nat} {here : Key} {names : List String}
    (hhere : s.get? here = some .directory) (h : s.get? (here ++ names) = none)
    (hway : ∀ a b, names = a ++ b → b ≠ [] →
      s.get? (here ++ a) = some .directory ∨ s.get? (here ++ a) = none)
    (hnames : ∀ n ∈ names, IsEntryName n) :
    LeadsNowhere (s.walk follow links here (names.map Step.enter)) := by
  obtain ⟨jump, hjump⟩ := walk_eq_walkOn s follow links
  rw [hjump]
  induction names generalizing here with
  | nil => simp [hhere] at h
  | cons n rest ih =>
    have hlimit : ¬ nameLimit < n.utf8ByteSize := by
      obtain ⟨-, -, -, hn⟩ := hnames n (by simp)
      omega
    have hnext : ∀ a, here ++ [n] ++ a = here ++ n :: a := by simp
    rw [List.map_cons]
    by_cases hgone : s.get? (here ++ [n]) = none
    · obtain ⟨outcome, hstep, hnowhere⟩ := 
        advance_vacant hhere hlimit hgone follow (rest.map Step.enter)
      rwa [walkOn_of_ends hstep]
    · have hrest : rest ≠ [] := by
        rintro rfl
        exact hgone h
      have hdir := (hway [n] rest rfl hrest).resolve_right hgone
      rw [walkOn_of_onward (advance_enter hhere hdir (by simp))]
      refine ih hdir (by rw [hnext, h]) (fun a b hab hb => ?_) fun m hm => hnames m (by simp [hm])
      rw [hnext]
      exact hway (n :: a) b (by simp [hab]) hb

/-! ### Where a walk starts -/

theorem directory_of_walk {follow : Bool} {links : Nat} {here k : Key} {a : List Step}
    (h : s.walk follow links here a = .ok (.entry k)) (hk : s.get? k = some .directory) :
    s.get? here = some .directory := by
  obtain ⟨jump, hjump⟩ := s.walk_eq_walkOn follow links
  rw [hjump] at h
  cases a with
  | nil =>
    obtain rfl : here = k := Spot.entry.inj (Except.ok.inj h)
    exact hk
  | cons step rest =>
    cases hstep : s.advance follow here step rest with
    | onward next => exact (advance_eq_onward.1 hstep).1
    | through target => exact (advance_eq_through.1 hstep).1
    | ends outcome =>
      rw [walkOn_of_ends hstep] at h
      subst h
      exact (advance_eq_entry.1 hstep).1

theorem directory_of_walkFrom {follow : Bool} {p : Position} {k : Key} {a : List Step}
    (h : s.walkFrom follow p a = .ok (.entry k)) (hk : s.get? k = some .directory) :
    s.get? p.key = some .directory := by
  rcases leave_of_walkFrom h with ⟨rest, -, hwalk⟩ | ⟨-, hspot⟩
  · exact directory_of_walk hwalk hk
  · cases hspot

/-! ### Ways out of removed directories -/

theorem leaveLost_add {lost more : Nat} {a rest : List Step}
    (h : leaveLost (lost + more) a = .ok (some rest)) :
    ∃ mid, leaveLost lost a = .ok (some mid) ∧ leaveLost more mid = .ok (some rest) := by
  induction a generalizing lost with
  | nil =>
    cases lost with
    | zero => exact ⟨[], rfl, by rwa [Nat.zero_add] at h⟩
    | succ lost => simp [leaveLost, Nat.succ_add] at h
  | cons step a ih =>
    cases lost with
    | zero => exact ⟨step :: a, by simp [leaveLost], by rwa [Nat.zero_add] at h⟩
    | succ lost =>
      rw [Nat.succ_add] at h
      cases step with
      | stay =>
        have hnext : leaveLost (lost + 1 + more) a = .ok (some rest) := by
          rw [Nat.succ_add]
          exact h
        exact ih hnext
      | up => exact ih h
      | enter name => simp [leaveLost] at h

theorem walkOn_stay {follow : Bool} {jump : Key → List Step → Except ErrorCode Spot} {here : Key}
    {a : List Step} (h : s.get? here = some .directory) :
    s.walkOn follow jump here (.stay :: a) = s.walkOn follow jump here a :=
  walkOn_of_onward (advance_eq_onward.2 ⟨h, .inl ⟨rfl, rfl⟩⟩)

theorem walkOn_up {follow : Bool} {jump : Key → List Step → Except ErrorCode Spot} {here : Key}
    {a : List Step} (h : s.get? here = some .directory) :
    s.walkOn follow jump here (.up :: a) = s.walkOn follow jump here.dropLast a :=
  walkOn_of_onward (advance_eq_onward.2 ⟨h, .inr (.inl ⟨rfl, rfl⟩)⟩)

/-- Steps that lead out of a number of removed directories lead out of as many that are there. -/
theorem walk_of_leaveLost {follow : Bool} {links : Nat} {here : Key} {names : List String}
    {a rest : List Step} (hdir : s.get? (here ++ names) = some .directory)
    (h : leaveLost names.length a = .ok (some rest)) :
    s.walk follow links (here ++ names) a = s.walk follow links here rest := by
  obtain ⟨jump, hjump⟩ := walk_eq_walkOn s follow links
  rw [hjump]
  induction a generalizing names with
  | nil =>
    cases names with
    | nil =>
      obtain rfl := Option.some.inj (Except.ok.inj h)
      rw [List.append_nil]
    | cons n names => simp [leaveLost] at h
  | cons step a ih =>
    by_cases hnames : names = []
    · subst hnames
      have hrest : leaveLost 0 (step :: a) = .ok (some (step :: a)) := by simp [leaveLost]
      obtain rfl := Option.some.inj (Except.ok.inj (hrest.symm.trans h))
      rw [List.append_nil]
    · obtain ⟨front, n, rfl⟩ := Key.exists_concat hnames
      rw [List.length_append, List.length_singleton] at h
      -- a step up leaves the last of the names, and the number of them goes down by one
      have houter : (here ++ (front ++ [n])).dropLast = here ++ front := by
        rw [← List.append_assoc, List.dropLast_concat]
      have habove : s.get? (here ++ front) = some .directory := by
        rw [← List.append_assoc] at hdir
        exact get?_of_directory_append hdir
      cases step with
      | stay =>
        rw [walkOn_stay hdir]
        apply ih hdir
        rw [List.length_append, List.length_singleton]
        exact h
      | up =>
        rw [walkOn_up hdir, houter]
        exact ih habove h
      | enter name => simp [leaveLost] at h

end VendorTree.Store
