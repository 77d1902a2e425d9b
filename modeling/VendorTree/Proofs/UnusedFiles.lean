import VendorTree.Proofs.JoinedPaths
import VendorTree.Proofs.Listed

/-!
# The files of unused packages

The packages of a listing are read off its directories, and the package of a file off the file. If
the texts in a listing are normal and the parent of each file is listed, both spell a package in the
same way, so the files of unused packages are those whose parent is not among the used ones. Every
listing of a directory is of this kind.
-/

namespace VendorTree

/-! ### Normal texts -/

/-- The text of a relative path, as the path is written. -/
def IsNormal (t : String) : Prop :=
  (Path.ofString t).isAbsolute = false ∧ (Path.ofString t).text = t

instance (t : String) : Decidable (IsNormal t) :=
  inferInstanceAs (Decidable ((Path.ofString t).isAbsolute = false ∧ (Path.ofString t).text = t))

/-- What stands before the last slash of a text, and a dot where there is no slash. -/
def parentText (t : String) : String := directoryText (slashPieces t).dropLast

theorem isNormal_entryText {names : List String} (h : ∀ n ∈ names, IsPathName n)
    (hne : names ≠ []) :
    IsNormal (entryText names) := by
  refine ⟨?_, ?_⟩
  · rw [ofString_entryText h]
    rfl
  · rw [text_ofString_entryText h, directoryText, if_neg hne]

theorem IsNormal.exists_names {t : String} (h : IsNormal t) :
    ∃ names, (∀ n ∈ names, IsPathName n) ∧ t = directoryText names := by
  obtain ⟨hrelative, htext⟩ := h
  have hanchor : (Path.ofString t).anchor = .relative := by
    simpa [Path.isAbsolute] using hrelative
  have hnamed := (Path.ofString t).named
  have hpath : Path.ofString t = ⟨.relative, (Path.ofString t).names, hnamed⟩ :=
    Path.eq_of_anchor_of_names hanchor rfl
  refine ⟨(Path.ofString t).names, hnamed, ?_⟩
  rw [← text_of_relative hnamed, ← hpath, htext]

theorem parentText_entryText {names : List String} (h : ∀ n ∈ names, IsPathName n)
    (hne : names ≠ []) : parentText (entryText names) = directoryText names.dropLast := by
  rw [parentText, slashPieces, splitOn_entryText h hne]

theorem packageOf_eq_parentText {t : String} (h : IsNormal t) : packageOf t = parentText t := by
  obtain ⟨names, hnamed, rfl⟩ := h.exists_names
  by_cases hne : names = []
  · subst hne
    decide
  · rw [directoryText, if_neg hne, packageOf_entryText hnamed, parentText_entryText hnamed hne]

/-! ### Closed listings -/

/-- The texts of the entries are normal, and with a file the directory in which it lies is
listed. -/
structure Listing.Closed (l : Listing) : Prop where
  normal : ∀ kind, ∀ t ∈ l.ofKind kind, IsNormal t
  parents : ∀ f ∈ l.files, parentText f ≠ "." → parentText f ∈ l.dirs

namespace Listing

variable {l : Listing} {used : List String}

theorem Closed.parentText_mem (h : l.Closed) {f : String} (hf : f ∈ l.files) :
    parentText f ∈ l.packages := by
  by_cases hroot : parentText f = "."
  · rw [hroot]
    exact List.mem_cons_self
  · -- the directory is normal, so its package is spelled like the directory
    have hdir := h.parents f hf hroot
    have htext : (Path.ofString (parentText f)).text = parentText f :=
      (h.normal .directory _ hdir).2
    exact List.mem_cons_of_mem _ (List.mem_map.2 ⟨_, hdir, htext⟩)

/-- A file lies in an unused package exactly if its parent is not one of the used texts. -/
theorem Closed.packageOf_mem_unusedPackages (h : l.Closed) {f : String} (hf : f ∈ l.files) :
    packageOf f ∈ l.unusedPackages used ↔ parentText f ∉ used := by
  rw [mem_unusedPackages, packageOf_eq_parentText (h.normal .file f hf)]
  exact and_iff_right (h.parentText_mem hf)

theorem Describes.closed {s : Store} {base : Key} (h : l.Describes s base) : l.Closed where
  normal kind t ht := by
    obtain ⟨names, node, hne, hn, -, rfl⟩ := (h kind t).1 ht
    exact isNormal_entryText (Store.isPathName_of_get? (Option.isSome_of_eq_some hn)) hne
  parents f hf hroot := by
    obtain ⟨names, node, hne, hn, -, rfl⟩ := (h .file f).1 hf
    have hnamed := Store.isPathName_of_get? (Option.isSome_of_eq_some hn)
    rw [parentText_entryText hnamed hne] at hroot ⊢
    by_cases hd : names.dropLast = []
    · exact absurd (if_pos hd) hroot
    · rw [directoryText, if_neg hd]
      exact h.mem_dirs hn hd

end Listing

/-- Every listing that is made of a directory is closed. -/
theorem closed_of_diskSnapshot {path : Path} {r r' : Run FileSystem} {l : Listing}
    (h : diskSnapshot path r = (.ok l, r')) : l.Closed := by
  obtain ⟨-, -, ⟨base, -, hl⟩ | ⟨-, hnone⟩⟩ := diskSnapshot_ok h
  · exact hl.closed
  · have hfiles : l.files = [] := hnone .file
    constructor
    · intro kind t ht
      simp [hnone] at ht
    · intro f hf
      simp [hfiles] at hf

/-- In a closed listing, the files of unused packages are the files that no rule keeps and whose
parent is not one of the used texts, in the order of the listing and as often as they stand there.
Every listing of a directory is closed. -/
theorem unusedFiles_exact :
    (∀ l : Listing, l.Closed → ∀ used rule,
      l.unusedFiles (l.unusedPackages used) rule =
        (l.files.filter fun f => !rule.keeps f && parentText f ∉ used).map l.absolute) ∧
    ∀ path r r' l, diskSnapshot path r = (.ok l, r') → l.Closed := by
  refine ⟨fun l h used rule => ?_, fun _ _ _ _ => closed_of_diskSnapshot⟩
  have hsame : ∀ f ∈ l.files, (!rule.keeps f && decide (packageOf f ∈ l.unusedPackages used)) =
      (!rule.keeps f && decide (parentText f ∉ used)) := by
    intro f hf
    rw [decide_eq_decide.2 (h.packageOf_mem_unusedPackages hf)]
  rw [Listing.unusedFiles, List.filter_congr hsame]

/-- Files at the root of a project and in two of its directories. One of the files is listed
twice. -/
def layeredListing : Listing where
  root := Path.ofString "/w/p"
  dirs := ["lib", "lib/sub", "cmd"]
  files := ["a.go", "lib/b.go", "lib/LICENSE", "lib/sub/c.go", "lib/b.go"]

/-- A directory of a project, and a file in it. -/
def layeredProject : FileSystem where
  store := [(["w"], "p", .directory), (["w", "p"], "lib", .directory),
      (["w", "p", "lib"], "b.go", .file ⟨#[1]⟩)].foldl
    (fun s (entry : Key × String × Node) => s.insert entry.1 entry.2.1 entry.2.2)
    (Store.empty.insert [] "w" .directory)
  here := ⟨["w"], 0⟩

/-- The used texts name one directory, and another one in a way that is not normal. -/
theorem unusedFiles_exact_layered :
    layeredListing.Closed ∧
      layeredListing.unusedFiles (layeredListing.unusedPackages ["lib/sub", "./lib"]) .standard =
        ["/w/p/a.go", "/w/p/lib/b.go", "/w/p/lib/b.go"].map Path.ofString ∧
      ∃ l r, diskSnapshot (Path.ofString "/w/p") ⟨layeredProject, []⟩ = (.ok l, r) ∧ l.Closed := by
  have hclosed : layeredListing.Closed := by
    refine ⟨fun kind => ?_, by decide +kernel⟩
    cases kind with
    | directory => decide +kernel
    | file => decide +kernel
    | link => decide +kernel
  have hreadable : layeredProject.Readable (Path.ofString "/w/p") :=
    FileSystem.readable_of_entries (by decide +kernel) (by decide +kernel) (by decide +kernel)
  obtain ⟨l, journal, hmade, -⟩ :=
    @diskSnapshot_of_readable (Path.ofString "/w/p") ⟨layeredProject, []⟩ hreadable
  obtain ⟨hexact, hlisted⟩ := unusedFiles_exact
  refine ⟨hclosed, ?_, l, _, hmade, hlisted _ _ _ _ hmade⟩
  rw [hexact layeredListing hclosed ["lib/sub", "./lib"] .standard]
  decide +kernel

end VendorTree
