import VendorTree.Proofs.EmptyDirectories

/-!
# Paths that are gone

What a path names is gone once it was removed or found missing, and since removals add nothing it
stays gone: a later removal of the same path finds it missing.
-/

namespace VendorTree

/-! ### Walks in a part of a store -/

namespace Store

variable {s s' : Store} {follow : Bool}

theorem walkOn_within {jump jump' : Key → List Step → Except ErrorCode Spot} (hs : s'.Within s)
    (hjump : ∀ here a, LeadsNowhere (jump' here a) ∨ jump' here a = jump here a) (here : Key)
    (a : List Step) : LeadsNowhere (s'.walkOn follow jump' here a) ∨
      s'.walkOn follow jump' here a = s.walkOn follow jump here a := by
  induction a generalizing here with
  | nil => exact .inr rfl
  | cons step rest ih =>
    rcases @advance_within s s' follow here step rest hs with ⟨outcome, hstep, hnowhere⟩ | hsame
    · exact .inl (walkOn_of_ends hstep ▸ hnowhere)
    · rw [walkOn_cons, walkOn_cons, hsame]
      cases s.advance follow here step rest with
      | onward next => exact ih next
      | through target => exact hjump _ _
      | ends outcome => exact .inr rfl

/-- A walk in a part of a store leads nowhere, or to what it leads to in the store. -/
theorem walk_within_cases (hs : s'.Within s) (links : Nat) (here : Key) (a : List Step) :
    LeadsNowhere (s'.walk follow links here a) ∨
      s'.walk follow links here a = s.walk follow links here a := by
  induction links generalizing here a with
  | zero => exact walkOn_within hs (fun _ _ => .inr rfl) here a
  | succ links ih => exact walkOn_within hs ih here a

theorem walkOn_unfollowed {jump jump' : Key → List Step → Except ErrorCode Spot} {k : Key}
    {node : Node} (hk : s.get? k = some node)
    (hjump : ∀ here a, jump here a = .ok (.entry k) →
      ∃ k' node', jump' here a = .ok (.entry k') ∧ s.get? k' = some node') {here : Key}
    {a : List Step} (h : s.walkOn true jump here a = .ok (.entry k)) :
    ∃ k' node', s.walkOn false jump' here a = .ok (.entry k') ∧ s.get? k' = some node' := by
  induction a generalizing here with
  | nil =>
    obtain rfl : here = k := Spot.entry.inj (Except.ok.inj h)
    exact ⟨here, node, rfl, hk⟩
  | cons step rest ih =>
    cases hstep : s.advance true here step rest with
    | onward next =>
      rw [walkOn_of_onward hstep] at h
      rw [walkOn_of_onward (advance_onward hstep false rest)]
      exact ih h
    | through target =>
      rw [walkOn_of_through hstep] at h
      by_cases hrest : rest = []
      · obtain ⟨hhere, name, hname, hlink, -⟩ := advance_eq_through.1 hstep
        have hends : s.advance false here step rest = .ends (.ok (.entry (here ++ [name]))) :=
          advance_eq_entry.2 ⟨hhere, hrest, rfl, name, target, hname, hlink, rfl⟩
        exact ⟨here ++ [name], .link target, walkOn_of_ends hends, hlink⟩
      · rw [walkOn_of_through (advance_through hstep (.inl hrest))]
        exact hjump _ _ h
    | ends outcome =>
      rw [walkOn_of_ends hstep] at h
      subst h
      obtain ⟨-, -, hfollow, -⟩ := advance_eq_entry.1 hstep
      cases hfollow

/-- Where a path leads to an entry, it does so too when a link at its end is not followed. -/
theorem walk_unfollowed {k : Key} {node : Node} (hk : s.get? k = some node) {links : Nat}
    {here : Key} {a : List Step} (h : s.walk true links here a = .ok (.entry k)) :
    ∃ k' node', s.walk false links here a = .ok (.entry k') ∧ s.get? k' = some node' := by
  induction links generalizing here a with
  | zero => exact walkOn_unfollowed hk (fun _ _ hj => by simp at hj) h
  | succ links ih => exact walkOn_unfollowed hk (fun _ _ hj => ih hj) h

end Store

theorem Path.isMissing_of_checkText {p : Path} {fault : Fault} (h : p.checkText = .error fault) :
    fault.isMissing = false := by
  rw [Path.checkText] at h
  split at h
  · cases h
    rfl
  · split at h
    · cases h
      rfl
    · cases h

namespace FileSystem

variable {fs fs' : FileSystem} {p : Path} {fault : Fault}

/-- There is nothing to remove at a path: no directory that it would be removed from, or no entry of
its name in there. -/
def Gone (fs : FileSystem) (p : Path) : Prop :=
  fs.target p = refuse p .notFound ∨
    ∃ dir name, fs.target p = .ok (.named dir name) ∧ fs.store.get? (dir ++ [name]) = none

theorem start_of_absolute (fs : FileSystem) (habs : p.isAbsolute = true) : fs.start p = ⟨[], 0⟩ :=
  if_pos habs

theorem target_within (hs : fs'.store.Within fs.store) (habs : p.isAbsolute = true) :
    fs'.target p = refuse p .notFound ∨ fs'.target p = fs.target p := by
  unfold target
  cases p.checkText with
  | error fault => exact .inr rfl
  | ok _ =>
    by_cases hne : p.names = []
    · exact .inr (by simp only [hne, if_true])
    simp only [hne, if_false, start_of_absolute _ habs, Store.walkFrom_of_notLost]
    rcases Store.walk_within_cases hs Store.linkLimit [] p.steps.dropLast with
      (hnow | ⟨parent, name, hnow⟩) | hsame
    · exact .inl (by rw [hnow]; rfl)
    · exact .inl (by rw [hnow]; rfl)
    · rw [hsame]
      cases fs.store.walk true Store.linkLimit [] p.steps.dropLast with
      | error code => exact .inr rfl
      | ok spot =>
        cases spot with
        | vacant parent name => exact .inr rfl
        | lost => exact .inr rfl
        | entry key =>
          cases hkey : fs'.store.get? key with
          | none => exact .inl (by simp only [hkey]; rfl)
          | some node => exact .inr (by simp only [hkey, hs key node hkey])

theorem Gone.of_within (h : fs.Gone p) (hs : fs'.store.Within fs.store)
    (habs : p.isAbsolute = true) : fs'.Gone p := by
  rcases target_within hs habs with hnow | hsame
  · exact .inl hnow
  · rcases h with hgone | ⟨dir, name, htarget, hnone⟩
    · exact .inl (hsame.trans hgone)
    · refine .inr ⟨dir, name, hsame.trans htarget, ?_⟩
      cases hentry : fs'.store.get? (dir ++ [name]) with
      | none => rfl
      | some node => rw [hs _ node hentry] at hnone; cases hnone

theorem RemovesLeaf.gone (h : fs.RemovesLeaf p fs') (habs : p.isAbsolute = true) : fs'.Gone p := by
  obtain ⟨dir, name, node, htarget, -, hempty, rfl⟩ := h
  have herased : (fs.store.erase (dir ++ [name])).get? (dir ++ [name]) = none := by
    rw [(Store.keeps_erase hempty).get?_eq (by simp)]
    simp
  have hwithin : (fs.update (fs.store.erase (dir ++ [name]))).store.Within fs.store :=
    Store.erase_within fs.store _
  rcases target_within hwithin habs with hnow | hsame
  · exact .inl hnow
  · exact .inr ⟨dir, name, hsame.trans htarget, herased⟩

/-! ### Removing what is gone -/

theorem Gone.unlink (h : fs.Gone p) : fs.unlink p = refuse p .notFound := by
  rcases h with hgone | ⟨dir, name, htarget, hnone⟩
  · rw [FileSystem.unlink, hgone]
    rfl
  · simp only [FileSystem.unlink, htarget, hnone, bind, Except.bind]

/-- Where a name can be entered none is missing: only its directory may be. -/
theorem isMissing_of_target_entry {key : Key} {node : Node} (htext : p.checkText = .ok ())
    (hne : p.names ≠ [])
    (hwalk : fs.store.walkFrom true (fs.start p) p.steps.dropLast = .ok (.entry key))
    (hkey : fs.store.get? key = some node) (h : fs.target p = .error fault) :
    fault.isMissing = false := by
  rw [target, htext] at h
  simp only [hne, if_false, hwalk, hkey, Option.map_some, bind, Except.bind] at h
  cases node with
  | directory =>
    cases hlast : p.lastStep with
    | enter name =>
      simp only [hlast] at h
      split at h
      · cases h
        rfl
      · cases h
    | up => simp [hlast] at h
    | stay => simp [hlast] at h
  | file contents =>
    cases h
    rfl
  | link target =>
    cases h
    rfl

/-- A path is missing because of the way to its last name. -/
theorem target_missing (h : fs.target p = .error fault) (hmissing : fault.isMissing = true) :
    fault = .call ⟨.notFound, [p.text]⟩ ∧ p.checkText = .ok () ∧ p.names ≠ [] ∧
      (Store.LeadsNowhere (fs.store.walkFrom true (fs.start p) p.steps.dropLast) ∨
        fs.store.walkFrom true (fs.start p) p.steps.dropLast = .ok .lost ∨
        ∃ key, fs.store.walkFrom true (fs.start p) p.steps.dropLast = .ok (.entry key) ∧
          fs.store.get? key = none) := by
  have htarget := h
  unfold target at h
  cases htext : p.checkText with
  | error textFault =>
    rw [htext] at h
    obtain rfl : textFault = fault := Except.error.inj h
    rw [Path.isMissing_of_checkText htext] at hmissing
    cases hmissing
  | ok _ =>
    rw [htext] at h
    by_cases hne : p.names = []
    · simp only [hne, if_true, bind, Except.bind] at h
      cases h
    simp only [hne, if_false, bind, Except.bind] at h
    cases hwalk : fs.store.walkFrom true (fs.start p) p.steps.dropLast with
    | error code =>
      rw [hwalk] at h
      obtain rfl := Except.error.inj h
      obtain rfl : code = .notFound := of_decide_eq_true hmissing
      exact ⟨rfl, rfl, hne, .inl Store.leadsNowhere_notFound⟩
    | ok spot =>
      rw [hwalk] at h
      cases spot with
      | vacant parent name =>
        exact ⟨(Except.error.inj h).symm, rfl, hne, .inl (Store.leadsNowhere_vacant _ _)⟩
      | lost =>
        cases hlast : p.lastStep with
        | up => rw [hlast] at h; cases h
        | stay =>
          rw [hlast] at h
          exact ⟨(Except.error.inj h).symm, rfl, hne, .inr (.inl rfl)⟩
        | enter name =>
          rw [hlast] at h
          exact ⟨(Except.error.inj h).symm, rfl, hne, .inr (.inl rfl)⟩
      | entry key =>
        cases hkey : fs.store.get? key with
        | none =>
          simp only [hkey, Option.map_none] at h
          exact ⟨(Except.error.inj h).symm, rfl, hne, .inr (.inr ⟨key, rfl, hkey⟩)⟩
        | some node =>
          rw [isMissing_of_target_entry htext hne hwalk hkey htarget] at hmissing
          cases hmissing

theorem Gone.leadsNowhere (h : fs.Gone p) (habs : p.isAbsolute = true) (follow : Bool) :
    p.checkText = .ok () ∧
      Store.LeadsNowhere (fs.store.walkFrom follow (fs.start p) p.steps) := by
  rcases h with hgone | ⟨dir, name, htarget, hnone⟩
  · obtain ⟨-, htext, hne, hway⟩ := target_missing hgone rfl
    obtain ⟨last, hlast⟩ : ∃ last, p.steps = p.steps.dropLast ++ [last] := by
      have hsteps : p.steps ≠ [] := by simpa [Path.steps] using hne
      exact ⟨_, (List.dropLast_concat_getLast hsteps).symm⟩
    refine ⟨htext, ?_⟩
    rw [hlast]
    rcases hway with hnowhere | hlost | ⟨key, hway, hkey⟩
    · exact Store.walkFrom_continue_missing (.inr (by simp)) hnowhere
    · rw [start_of_absolute fs habs, Store.walkFrom_of_notLost] at hlost
      exact absurd hlost (Store.walk_ne_lost _ _ _ _)
    · refine Store.walkFrom_append_of (by simp) hway fun links => ?_
      obtain ⟨jump, hjump⟩ := fs.store.walk_eq_walkOn follow links
      obtain ⟨outcome, hstep, hnowhere⟩ : ∃ outcome, fs.store.advance follow key last [] =
          .ends outcome ∧ Store.LeadsNowhere outcome := Store.exists_advance_missing.2 (.inl hkey)
      rwa [hjump, Store.walkOn_of_ends hstep]
  · have hnames := target_ok htarget
    refine ⟨hnames.text, ?_⟩
    rw [hnames.steps]
    refine Store.walkFrom_append_of (by simp) hnames.way fun links => ?_
    obtain ⟨jump, hjump⟩ := fs.store.walk_eq_walkOn follow links
    obtain ⟨outcome, hstep, hnowhere⟩ := Store.advance_vacant hnames.directory
      (Nat.not_lt.2 hnames.limit) hnone follow []
    rwa [hjump, Store.walkOn_of_ends hstep]

theorem Gone.entryAt (h : fs.Gone p) (habs : p.isAbsolute = true) (follow : Bool) :
    fs.entryAt follow p = refuse p .notFound :=
  entryAt_of_leadsNowhere (h.leadsNowhere habs follow).1 (h.leadsNowhere habs follow).2

theorem Gone.holds (h : fs.Gone p) (habs : p.isAbsolute = true) (follow : Bool)
    (test : Node → Bool) : fs.holds follow p test = .ok false := by
  rw [FileSystem.holds, h.entryAt habs follow]
  rfl

theorem Gone.removeBy (h : fs.Gone p) (habs : p.isAbsolute = true) (kind : RemoverKind) :
    fs.removeBy kind p = (refuse p .notFound, fs) := by
  have hdir : fs.isDirectory p = .ok false := h.holds habs true _
  have hlink : fs.isLink p = .ok false := h.holds habs false _
  cases kind with
  | entry =>
    have hremove : fs.removePath p = refuse p .notFound := by
      rw [removePath, hdir]
      exact h.unlink
    rw [FileSystem.removeBy, hremove]
    rfl
  | tree =>
    have hsingle : fs.isSingle p = .ok true := by
      rw [isSingle, hlink]
      simp only [hdir, bind, Except.bind]
      rfl
    rw [FileSystem.removeBy, removeTree, hsingle]
    simp only [h.unlink]
    rfl

/-! ### Removals that find nothing -/

theorem gone_of_target {α : Type} {f : Target → Except Fault α}
    (h : (fs.target p >>= f) = .error fault) (hmissing : fault.isMissing = true)
    (hf : ∀ target, f target = .error fault →
      ∃ dir name, target = .named dir name ∧ fs.store.get? (dir ++ [name]) = none) : fs.Gone p := by
  cases htarget : fs.target p with
  | error targetFault =>
    rw [htarget] at h
    obtain rfl : targetFault = fault := Except.error.inj h
    rw [Gone, htarget, (target_missing htarget hmissing).1]
    exact .inl rfl
  | ok target =>
    rw [htarget] at h
    obtain ⟨dir, name, rfl, hnone⟩ := hf target h
    exact .inr ⟨dir, name, htarget, hnone⟩

theorem gone_of_unlink (h : fs.unlink p = .error fault) (hmissing : fault.isMissing = true) :
    fs.Gone p := by
  refine gone_of_target h hmissing fun target hfails => ?_
  cases target with
  | above => cases hfails; cases hmissing
  | same => cases hfails; cases hmissing
  | named dir name =>
    refine ⟨dir, name, rfl, ?_⟩
    simp only at hfails
    split at hfails
    · assumption
    · cases hfails; cases hmissing
    · cases hfails

theorem gone_of_removeDirectory (h : fs.removeDirectory p = .error fault)
    (hmissing : fault.isMissing = true) : fs.Gone p := by
  refine gone_of_target h hmissing fun target hfails => ?_
  cases target with
  | above => cases hfails; cases hmissing
  | same =>
    simp only at hfails
    split at hfails <;> cases hfails <;> cases hmissing
  | named dir name =>
    refine ⟨dir, name, rfl, ?_⟩
    simp only at hfails
    split at hfails
    · assumption
    · split at hfails
      · cases hfails
      · cases hfails; cases hmissing
    · cases hfails; cases hmissing

theorem isMissing_of_holds {follow : Bool} {test : Node → Bool}
    (h : fs.holds follow p test = .error fault) : fault.isMissing = false := by
  rw [FileSystem.holds] at h
  split at h
  · cases h
  · cases h
  · rename_i failure _
    split at h
    · cases h
    · rename_i hpresent
      obtain rfl := Except.error.inj h
      rw [Fault.isMissing, CallFailure.isMissing, decide_eq_false_iff_not]
      rintro hcode
      rw [hcode] at hpresent
      exact hpresent rfl

theorem gone_of_removePath (h : fs.removePath p = .error fault)
    (hmissing : fault.isMissing = true) : fs.Gone p := by
  unfold removePath at h
  cases hdir : fs.isDirectory p with
  | error dirFault =>
    rw [hdir] at h
    obtain rfl : dirFault = fault := Except.error.inj h
    rw [isMissing_of_holds hdir] at hmissing
    cases hmissing
  | ok isDir =>
    rw [hdir] at h
    cases isDir with
    | false => exact gone_of_unlink h hmissing
    | true =>
      cases hlink : fs.isLink p with
      | error linkFault =>
        simp only [hlink, bind, Except.bind, if_true] at h
        obtain rfl : linkFault = fault := Except.error.inj h
        rw [isMissing_of_holds hlink] at hmissing
        cases hmissing
      | ok isLink =>
        simp only [hlink, bind, Except.bind, if_true] at h
        cases isLink with
        | true => exact gone_of_unlink h hmissing
        | false => exact gone_of_removeDirectory h hmissing

theorem isDirectory_of_isSingle (h : fs.isSingle p = .ok false) : fs.isDirectory p = .ok true := by
  rw [isSingle] at h
  cases hlink : fs.isLink p with
  | error fault => rw [hlink] at h; cases h
  | ok isLink =>
    rw [hlink] at h
    cases isLink with
    | true => cases h
    | false =>
      cases hdir : fs.isDirectory p with
      | error fault =>
        simp only [hdir, bind, Except.bind, Bool.false_eq_true, if_false] at h
        cases h
      | ok isDir =>
        simp only [hdir, bind, Except.bind, Bool.false_eq_true, if_false] at h
        cases isDir with
        | true => rfl
        | false => cases h

theorem entryAt_of_directory (habs : p.isAbsolute = true) (h : fs.isDirectory p = .ok true) :
    ∃ found, fs.entryAt false p = .ok found := by
  obtain ⟨key, hentry⟩ := entryAt_of_isDirectory h
  obtain ⟨htext, hleads, hnode⟩ := entryAt_ok hentry
  rw [start_of_absolute fs habs, Store.walkFrom_of_notLost] at hleads
  cases key with
  | none => exact absurd hleads (Store.walk_ne_lost _ _ _ _)
  | some key =>
    obtain ⟨key', node', hreaches, hentry'⟩ := Store.walk_unfollowed (hnode key rfl) hleads
    rw [← Store.walkFrom_of_notLost, ← start_of_absolute fs habs] at hreaches
    exact ⟨_, entryAt_of_walk htext hreaches hentry'⟩

theorem isMissing_of_isSingle (h : fs.isSingle p = .error fault) : fault.isMissing = false := by
  rw [isSingle] at h
  cases hlink : fs.isLink p with
  | error linkFault =>
    rw [hlink] at h
    obtain rfl : linkFault = fault := Except.error.inj h
    exact isMissing_of_holds hlink
  | ok isLink =>
    rw [hlink] at h
    cases isLink with
    | true => cases h
    | false =>
      cases hdir : fs.isDirectory p with
      | error dirFault =>
        simp only [hdir, bind, Except.bind, Bool.false_eq_true, if_false] at h
        obtain rfl : dirFault = fault := Except.error.inj h
        exact isMissing_of_holds hdir
      | ok isDir =>
        simp only [hdir, bind, Except.bind, Bool.false_eq_true, if_false] at h
        cases h

theorem gone_of_removeTree {x : Except Fault Unit} (h : fs.removeTree p = (x, fs'))
    (habs : p.isAbsolute = true) (hx : ∀ fault, x = .error fault → fault.isMissing = true) :
    fs'.Gone p := by
  rw [removeTree] at h
  cases hsingle : fs.isSingle p with
  | error fault =>
    rw [hsingle] at h
    obtain ⟨rfl, rfl⟩ := Prod.mk.inj h
    have hmissing := hx fault rfl
    rw [isMissing_of_isSingle hsingle] at hmissing
    cases hmissing
  | ok isSingle =>
    rw [hsingle] at h
    cases isSingle with
    | true =>
      cases hunlink : fs.unlink p with
      | ok after =>
        simp only [hunlink] at h
        obtain ⟨-, rfl⟩ := Prod.mk.inj h
        exact (unlink_removesLeaf hunlink).gone habs
      | error fault =>
        simp only [hunlink] at h
        obtain ⟨rfl, rfl⟩ := Prod.mk.inj h
        exact gone_of_unlink hunlink (hx fault rfl)
    | false =>
      obtain ⟨⟨key, node⟩, hentry⟩ := entryAt_of_directory habs (isDirectory_of_isSingle hsingle)
      simp only [removeContents, hentry] at h
      -- whatever was taken below it, the last call is the one that is about the path
      generalize (key.map fun k => fs.update (fs.store.clear k)).getD fs = cleared at h
      cases hremove : cleared.removeDirectory p with
      | ok after =>
        rw [hremove] at h
        obtain ⟨-, rfl⟩ := Prod.mk.inj h
        exact (removeDirectory_removesLeaf hremove).gone habs
      | error fault =>
        rw [hremove] at h
        obtain ⟨rfl, rfl⟩ := Prod.mk.inj h
        exact gone_of_removeDirectory hremove (hx fault rfl)

/-- After a removal that went through or found nothing, what the path names is gone. -/
theorem gone_of_removeBy {kind : RemoverKind} {x : Except Fault Unit}
    (h : fs.removeBy kind p = (x, fs')) (habs : p.isAbsolute = true)
    (hx : ∀ fault, x = .error fault → fault.isMissing = true) : fs'.Gone p := by
  cases kind with
  | tree => exact gone_of_removeTree h habs hx
  | entry =>
    rw [FileSystem.removeBy] at h
    cases hremove : fs.removePath p with
    | ok after =>
      rw [hremove] at h
      obtain ⟨-, rfl⟩ := Prod.mk.inj h
      exact (removePath_removesLeaf hremove).gone habs
    | error fault =>
      rw [hremove] at h
      obtain ⟨rfl, rfl⟩ := Prod.mk.inj h
      exact gone_of_removePath hremove (hx fault rfl)

end FileSystem

/-! ### Calls on the same path -/

section Calls

variable {fs fs' : FileSystem} {p : Path} {faults : List (String × Fault)} {rule : PreservationRule}
  {calls : List (Call FileSystem)} {c : Call FileSystem}

/-- The fault with which a call ends a run, if it does. -/
def Call.fatal? {σ : Type} (c : Call σ) : Option Fault :=
  match c.outcome with
  | .ok _ => none
  | .error fault => if fault.isMissing then none else some fault

/-- The call found nothing to remove. -/
def Call.foundMissing {σ : Type} (c : Call σ) : Bool :=
  match c.outcome with
  | .ok _ => false
  | .error fault => fault.isMissing

theorem Call.fatal?_eq_none {σ : Type} {c : Call σ} :
    c.fatal? = none ↔ ∀ fault, c.outcome = .error fault → fault.isMissing = true := by
  unfold Call.fatal?
  cases c.outcome with
  | ok _ => simp
  | error fault => cases hmissing : fault.isMissing <;> simp [hmissing]

theorem Call.MadeBy.cases_lookup (h : c.MadeBy (diskTools faults rule)) :
    (∃ fault, faults.lookup c.path.text = some fault ∧ c.outcome = .error fault ∧
      c.after = c.before) ∨
    (faults.lookup c.path.text = none ∧
      c.before.removeBy c.kind c.path = (c.outcome, c.after)) := by
  obtain ⟨journal, journal', hcall⟩ := h
  cases hlookup : faults.lookup c.path.text with
  | some fault =>
    have hfails : ∀ remove : Remover FileSystem, failingOn faults remove c.path =
        Action.fail fault := fun remove => by rw [failingOn, hlookup]
    have hrun : (diskTools faults rule).remover c.kind c.path ⟨c.before, journal⟩ =
        (.error fault, ⟨c.before, journal⟩) := by
      cases c.kind with
      | entry => exact congrFun (hfails _) _
      | tree => exact congrFun (hfails _) _
    obtain ⟨houtcome, hworld⟩ := Prod.mk.inj (hcall.symm.trans hrun)
    exact .inl ⟨fault, rfl, houtcome, (Run.mk.inj hworld).1⟩
  | none =>
    have hsame : ∀ remove : Remover FileSystem, failingOn faults remove c.path = remove c.path :=
      fun remove => by rw [failingOn, hlookup]
    refine .inr ⟨rfl, ?_⟩
    cases hkind : c.kind with
    | entry =>
      rw [hkind] at hcall
      have hremove := (congrFun (hsame diskRemove) _).symm.trans hcall
      rw [diskRemove_run] at hremove
      unfold FileSystem.removeBy
      cases h : c.before.removePath c.path <;> simp_all
    | tree =>
      rw [hkind] at hcall
      obtain ⟨houtcome, hworld⟩ :=
        Prod.mk.inj ((congrFun (hsame diskRemoveTree) _).symm.trans hcall)
      exact Prod.ext houtcome (Run.mk.inj hworld).1

theorem Call.MadeBy.within (h : c.MadeBy (diskTools faults rule))
    (habs : c.path.isAbsolute = true) : c.after.store.Within c.before.store := by
  rcases h.cases_lookup with ⟨fault, -, -, hafter⟩ | ⟨-, hremove⟩
  · rw [hafter]
    exact fun _ _ hn => hn
  · have hafter : c.after = (c.before.removeBy c.kind c.path).2 := by rw [hremove]
    rw [hafter]
    cases c.kind with
    | entry => exact (FileSystem.removeBy_entry_loses _ _).within
    | tree => exact (FileSystem.removeTree_loses habs).within

/-- A remover finds nothing at the path, now and after further removals. -/
def Settled (faults : List (String × Fault)) (fs : FileSystem) (p : Path) : Prop :=
  match faults.lookup p.text with
  | some fault => fault.isMissing = true
  | none => fs.Gone p

theorem Settled.of_within (h : Settled faults fs p) (hs : fs'.store.Within fs.store)
    (habs : p.isAbsolute = true) : Settled faults fs' p := by
  unfold Settled at h ⊢
  split at h
  · exact h
  · exact h.of_within hs habs

theorem Call.MadeBy.settled (h : c.MadeBy (diskTools faults rule))
    (habs : c.path.isAbsolute = true) (hpassed : c.fatal? = none) :
    Settled faults c.after c.path := by
  rw [Call.fatal?_eq_none] at hpassed
  unfold Settled
  rcases h.cases_lookup with ⟨fault, hlookup, houtcome, -⟩ | ⟨hlookup, hremove⟩
  · rw [hlookup]
    exact hpassed fault houtcome
  · rw [hlookup]
    exact FileSystem.gone_of_removeBy hremove habs hpassed

theorem Call.MadeBy.foundMissing (h : c.MadeBy (diskTools faults rule))
    (habs : c.path.isAbsolute = true) (hsettled : Settled faults c.before c.path) :
    c.foundMissing = true := by
  unfold Settled at hsettled
  unfold Call.foundMissing
  rcases h.cases_lookup with ⟨fault, hlookup, houtcome, -⟩ | ⟨hlookup, hremove⟩
  · rw [hlookup] at hsettled
    rw [houtcome]
    exact hsettled
  · rw [hlookup] at hsettled
    obtain ⟨houtcome, -⟩ := Prod.mk.inj ((hsettled.removeBy habs c.kind).symm.trans hremove)
    rw [← houtcome]
    rfl

theorem Linked.foundMissing (h : Linked fs calls fs') (habs : p.isAbsolute = true)
    (hcalls : ∀ c ∈ calls, c.MadeBy (diskTools faults rule) ∧ c.path.isAbsolute = true)
    (hsettled : Settled faults fs p) : ∀ c ∈ calls, c.path = p → c.foundMissing = true := by
  induction calls generalizing fs with
  | nil => simp
  | cons c rest ih =>
    obtain ⟨rfl, hrest⟩ := h
    obtain ⟨hmade, hpath⟩ := hcalls c List.mem_cons_self
    intro d hd hsame
    rcases List.mem_cons.1 hd with rfl | hd
    · exact hmade.foundMissing hpath (hsame ▸ hsettled)
    · exact ih hrest (fun d hd => hcalls d (List.mem_cons_of_mem c hd))
        (hsettled.of_within (hmade.within hpath) habs) d hd hsame

/-- After a call that did not end the run, every call on the same path finds nothing. -/
theorem Linked.pairwise_foundMissing (h : Linked fs calls fs')
    (hcalls : ∀ c ∈ calls, c.MadeBy (diskTools faults rule) ∧ c.path.isAbsolute = true) :
    calls.Pairwise fun c d => c.fatal? = none → d.path = c.path → d.foundMissing = true := by
  induction calls generalizing fs with
  | nil => exact List.Pairwise.nil
  | cons c rest ih =>
    obtain ⟨rfl, hrest⟩ := h
    obtain ⟨hmade, hpath⟩ := hcalls c List.mem_cons_self
    have hlater := fun d hd => hcalls d (List.mem_cons_of_mem c hd)
    refine List.pairwise_cons.2 ⟨fun d hd hpassed hsame => ?_, ih hrest hlater⟩
    exact hrest.foundMissing hpath hlater (hmade.settled hpath hpassed) d hd hsame

end Calls

end VendorTree
