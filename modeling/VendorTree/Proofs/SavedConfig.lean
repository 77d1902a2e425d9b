import VendorTree.Proofs.ActionSteps
import VendorTree.Proofs.Replacing
import VendorTree.Proofs.WrittenConfig

/-!
# Saved configurations

A configuration that was saved is loaded as the same configuration, whatever the names of its
projects are and whichever form their entries have, and saving it once more writes the same text.
For this a directory must still be at the path above the one that was saved to. It always is in a
tree without links, and otherwise unless that path passes the very link that the file took the place
of.
-/

namespace VendorTree

namespace FileSystem

variable {fs fs' : FileSystem} {config : Config} {path : Option Path} {destination : Path}

/-- A configuration is saved at the given path, if there is one, and a file with its text takes the
place of what is there. -/
theorem saveConfig_ok (h : fs.saveConfig config path = (.ok destination, fs')) :
    (∀ given ∈ path, destination = given) ∧
      ∃ written dir name, HoldsFile written destination dir name config.write.toUTF8 fs' ∧
        (fs.store.LinkFree → written.store.LinkFree) := by
  unfold saveConfig at h
  extract_lets chosen at h
  have hchosen : ∀ given ∈ path, chosen = .ok given := by
    rintro given rfl
    rfl
  clear_value chosen
  generalize config.write.toUTF8 = contents at h ⊢
  cases chosen with
  | error fault => simp at h
  | ok p =>
    cases hmade : fs.makeDirectories p.parent with
    | mk outcome made =>
    cases outcome with
    | error fault => simp [hmade] at h
    | ok _ =>
    cases hdir : made.absolute p.parent with
    | error fault => cases fault <;> simp [hmade, hdir] at h
    | ok dir =>
    cases hreplaced : made.replaceFile dir.collapsed p contents with
    | mk outcome replaced =>
    cases outcome with
    | error fault => simp [hmade, hdir, hreplaced] at h
    | ok _ =>
      -- every other way through the stages ends with a fault
      obtain ⟨rfl, rfl⟩ : p = destination ∧ replaced = fs' := by
        simpa [hmade, hdir, hreplaced] using h
      have habs : dir.isAbsolute = true := isAbsolute_of_absolute hdir
      obtain ⟨written, key, name, hfile, hlinks⟩ := replaceFile_ok
        (show dir.collapsed.isAbsolute = true from habs) hreplaced
      refine ⟨fun given hgiven => Except.ok.inj (hchosen given hgiven), written, key, name, hfile,
        fun hs => hlinks ?_⟩
      have hbefore := makeDirectoriesWithin_linkFree hs p.parent.names.length p.parent
      rwa [show fs.makeDirectoriesWithin _ _ = _ from hmade] at hbefore

theorem loadConfig_of_entryAt {key : Option Key}
    (h : fs.entryAt true destination = .ok (key, .file config.write.toUTF8)) :
    fs.loadConfig destination = .ok config := by
  rw [loadConfig, load, existsAt_of_entryAt h, read_of_entryAt h]
  exact config.decodeDocument_write

theorem entryAt_of_saveConfig (hsave : fs.saveConfig config path = (.ok destination, fs'))
    (hparent : fs'.isDirectory destination.parent = .ok true) :
    ∃ key, fs'.entryAt true destination = .ok (key, .file config.write.toUTF8) := by
  obtain ⟨-, written, dir, name, hfile, -⟩ := saveConfig_ok hsave
  exact ⟨_, hfile.entryAt (hfile.way_of_isDirectory hparent)⟩

theorem loadConfig_of_linkFree (hs : fs.store.LinkFree)
    (hsave : fs.saveConfig config path = (.ok destination, fs')) :
    fs'.loadConfig destination = .ok config := by
  obtain ⟨-, written, dir, name, hfile, hlinks⟩ := saveConfig_ok hsave
  exact loadConfig_of_entryAt (hfile.entryAt (hfile.way_of_not_link (hlinks hs (dir ++ [name]))))

/-- A configuration that was saved is loaded as the same configuration from where it was saved,
which is the given path if there is one. Saved once more, at whatever path, it has the same text. -/
theorem saveConfig_roundTrips (hsave : fs.saveConfig config path = (.ok destination, fs'))
    (hparent : fs'.isDirectory destination.parent = .ok true) :
    (∀ given ∈ path, destination = given) ∧ fs'.loadConfig destination = .ok config ∧
      ∀ reloaded, fs'.loadConfig destination = .ok reloaded →
        ∀ again copy fs'', fs'.saveConfig reloaded again = (.ok copy, fs'') →
          fs''.isDirectory copy.parent = .ok true → fs''.read copy = fs'.read destination := by
  obtain ⟨key, hentry⟩ := entryAt_of_saveConfig hsave hparent
  have hload := loadConfig_of_entryAt hentry
  refine ⟨(saveConfig_ok hsave).1, hload, ?_⟩
  intro reloaded hreloaded again copy fs'' hagain hthere
  obtain rfl : config = reloaded := Except.ok.inj (hload.symm.trans hreloaded)
  obtain ⟨key', hcopy⟩ := entryAt_of_saveConfig hagain hthere
  rw [read_of_entryAt hcopy, read_of_entryAt hentry]

/-- A directory with another one and a link to that. -/
def besideLink : FileSystem where
  store := ((Store.empty.insert [] "w" .directory).insert ["w"] "d" .directory).insert ["w"] "l"
    (.link "d")
  here := ⟨["w"], 0⟩
  drawn _ := "tmp8w6am66_.tmp"

/-- A configuration for projects whose names need escapes, one of them with no choice of its own. -/
def escapedNames : Config where
  policies := .ofList [.nonGo, .goTests]
  overrides := [
    ⟨⟨"a \"b\" \\ \t\n\x01\x7f é", by decide⟩, ⟨some true, none, some false, none⟩⟩,
    ⟨⟨"\r", by decide⟩, ⟨none, none, none, none⟩⟩]
  distinct := by decide

theorem saveConfig_eq {p : Path} (h : (fs.saveConfig config (some p)).1.toOption = some p) :
    fs.saveConfig config (some p) = (.ok p, (fs.saveConfig config (some p)).2) :=
  Prod.ext (ok_of_toOption h) rfl

/-- A path whose directory is missing and is made through the link. -/
def newPath : Path := Path.ofString "l/new/c.toml"

theorem saveConfig_roundTrips_escapedNames : ∃ fs' fs'' : FileSystem,
    besideLink.saveConfig escapedNames (some newPath) = (.ok newPath, fs') ∧
      fs'.saveConfig escapedNames (some newPath) = (.ok newPath, fs'') ∧
        fs'.loadConfig newPath = .ok escapedNames ∧ fs''.read newPath = fs'.read newPath := by
  have hsave := saveConfig_eq (show (besideLink.saveConfig escapedNames
    (some newPath)).1.toOption = some newPath by decide +kernel)
  have hthere : (besideLink.saveConfig escapedNames (some newPath)).2.isDirectory newPath.parent =
    .ok true := ok_of_toOption (by decide +kernel)
  have hagain := saveConfig_eq (show ((besideLink.saveConfig escapedNames
    (some newPath)).2.saveConfig escapedNames (some newPath)).1.toOption = some newPath by
      decide +kernel)
  have hthere' : ((besideLink.saveConfig escapedNames (some newPath)).2.saveConfig escapedNames
    (some newPath)).2.isDirectory newPath.parent = .ok true := ok_of_toOption (by decide +kernel)
  obtain ⟨-, hload, hsame⟩ := saveConfig_roundTrips hsave hthere
  exact ⟨_, _, hsave, hagain, hload, hsame _ hload _ _ _ hagain hthere'⟩

/-- A path that comes to its end through the link that stands there. -/
def throughEnd : Path := Path.ofString "/w/l/../l"

/-- Once a file has taken the place of the link at the end of its own way, the path leads nowhere,
and what was saved is not loaded. -/
theorem saveConfig_loses_way : ∃ fs' : FileSystem,
    besideLink.saveConfig .standard (some throughEnd) = (.ok throughEnd, fs') ∧
      fs'.loadConfig throughEnd ≠ .ok .standard := by
  have hsave := saveConfig_eq (show (besideLink.saveConfig .standard
    (some throughEnd)).1.toOption = some throughEnd by decide +kernel)
  have hload : ((besideLink.saveConfig .standard (some throughEnd)).2.loadConfig
    throughEnd).toOption = none := by decide +kernel
  refine ⟨_, hsave, fun h => ?_⟩
  have hsome := hload.symm.trans (congrArg Except.toOption h)
  exact absurd hsome (Option.some_ne_none _).symm

end FileSystem

end VendorTree
