import VendorTree.Loading
import VendorTree.Proofs.ActionSteps

/-!
# The configuration that counts

Of the configurations that a command could use, one counts, and it is used or none is: where it is
not loaded, the next one does not take its place.
-/

namespace VendorTree

/-- The configuration that counts: the one at the path that is given, else the one in the current
directory, else the user's, else the one where nothing is said. Unless a path is given, it must be
known where the user's would lie. -/
inductive Resolves (fs : FileSystem) (env : Environment) : Option Path → Config → Prop
  | given {path : Path} {config : Config} (loaded : fs.loadConfig path = .ok config) :
    Resolves fs env (some path) config
  | here {dir user : Path} {config : Config} (current : fs.currentPath = .ok dir)
    (known : env.userConfig? = some user)
    (found : fs.isFile (dir.join projectConfigName) = .ok true)
    (loaded : fs.loadConfig (dir.join projectConfigName) = .ok config) : Resolves fs env none config
  | user {dir user : Path} {config : Config} (current : fs.currentPath = .ok dir)
    (known : env.userConfig? = some user)
    (missing : fs.isFile (dir.join projectConfigName) = .ok false)
    (found : fs.isFile user = .ok true) (loaded : fs.loadConfig user = .ok config) :
    Resolves fs env none config
  | standard {dir user : Path} (current : fs.currentPath = .ok dir)
    (known : env.userConfig? = some user)
    (missing : fs.isFile (dir.join projectConfigName) = .ok false)
    (noneFound : fs.isFile user = .ok false) : Resolves fs env none .standard

section Configuration

variable {fs : FileSystem} {env : Environment} {dir user : Path} {config : Config}

theorem findConfig_eq (current : fs.currentPath = .ok dir) (known : env.userConfig? = some user) :
    fs.findConfig env none =
      (fs.firstFile [dir.join projectConfigName, user]).mapError SearchFault.fault := by
  simp only [FileSystem.findConfig, FileSystem.projectConfig, current, known]
  rfl

theorem firstFile_of_found {p : Path} (found : fs.isFile p = .ok true) (rest : List Path) :
    fs.firstFile (p :: rest) = .ok (some p) := by
  rw [FileSystem.firstFile, found]
  rfl

theorem firstFile_of_missing {p : Path} (missing : fs.isFile p = .ok false) (rest : List Path) :
    fs.firstFile (p :: rest) = fs.firstFile rest := by
  rw [FileSystem.firstFile, missing]
  rfl

theorem resolveConfig_of_resolves {path : Option Path} (h : Resolves fs env path config) :
    fs.resolveConfig env path none = .ok config := by
  cases h with
  | given loaded => exact loaded
  | here current known found loaded =>
    rw [FileSystem.resolveConfig, findConfig_eq current known, firstFile_of_found found]
    exact loaded
  | user current known missing found loaded =>
    rw [FileSystem.resolveConfig, findConfig_eq current known, firstFile_of_missing missing,
      firstFile_of_found found]
    exact loaded
  | standard current known missing noneFound =>
    rw [FileSystem.resolveConfig, findConfig_eq current known, firstFile_of_missing missing,
      firstFile_of_missing noneFound]
    rfl

theorem findConfig_ok {found : Option Path} (h : fs.findConfig env none = .ok found) :
    ∃ dir user, fs.currentPath = .ok dir ∧ env.userConfig? = some user ∧
      fs.firstFile [dir.join projectConfigName, user] = .ok found := by
  obtain ⟨candidate, hcandidate, h⟩ := exists_of_except_bind h
  obtain ⟨dir, hdir, hjoin⟩ := exists_of_except_bind (mapError_eq_ok.1 hcandidate)
  obtain rfl := Except.ok.inj hjoin
  split at h
  · cases h
  · rename_i user huser
    exact ⟨dir, user, hdir, huser, mapError_eq_ok.1 h⟩

theorem firstFile_cons_ok {p : Path} {rest : List Path} {found : Option Path}
    (h : fs.firstFile (p :: rest) = .ok found) :
    (fs.isFile p = .ok true ∧ found = some p) ∨
      fs.isFile p = .ok false ∧ fs.firstFile rest = .ok found := by
  obtain ⟨there, hthere, h⟩ := exists_of_except_bind h
  cases there with
  | true => exact .inl ⟨hthere, (Except.ok.inj h).symm⟩
  | false => exact .inr ⟨hthere, h⟩

theorem resolves_of_resolveConfig {path : Option Path}
    (h : fs.resolveConfig env path none = .ok config) : Resolves fs env path config := by
  cases path with
  | some path => exact .given h
  | none =>
    rw [FileSystem.resolveConfig] at h
    cases hfind : fs.findConfig env none with
    | error fault => cases fault <;> simp [hfind] at h
    | ok found =>
      obtain ⟨dir, user, current, known, hfirst⟩ := findConfig_ok hfind
      rw [hfind] at h
      rcases firstFile_cons_ok hfirst with ⟨hfile, rfl⟩ | ⟨hmissing, hrest⟩
      · exact .here current known hfile h
      rcases firstFile_cons_ok hrest with ⟨hfile, rfl⟩ | ⟨hmissing', hnone⟩
      · exact .user current known hmissing hfile h
      · obtain rfl := Except.ok.inj hnone
        obtain rfl := Except.ok.inj h
        exact .standard current known hmissing hmissing'

theorem resolveConfig_eq_ok_iff {path : Option Path} :
    fs.resolveConfig env path none = .ok config ↔ Resolves fs env path config :=
  ⟨resolves_of_resolveConfig, resolveConfig_of_resolves⟩

end Configuration

end VendorTree
