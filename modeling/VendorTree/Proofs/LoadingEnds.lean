import VendorTree.Proofs.ActionSteps
import VendorTree.Proofs.ReaderLimits
import VendorTree.Proofs.Replacing
import VendorTree.Proofs.WrittenConfig

/-!
# How loading ends

A document at a path of which it can be told whether something is there is loaded, or it is not for
one of four reasons: nothing is at the path, no file is, the file holds no document, or one that is
not of the kind. Which of these it is follows from what is at the path. The reader gives up in three
cases beyond that: contents that are no text, whole numbers that are too long to be converted, and
values that lie too deep in each other. The last two take a text of thousands of digits or hundreds
of brackets.
-/

namespace VendorTree

/-- The contents of a file are those of a document, which stands for a table. -/
def HoldsDocument (contents : ByteArray) (data : Data) : Prop :=
  ∃ text, String.fromUTF8? contents = some text ∧ Toml.readDocument text = .ok data

/-- The reader comes to an end with the contents of a file: they are text, and it takes the text for
a document or for none. -/
def ReaderDecides (contents : ByteArray) : Prop :=
  ∃ text, String.fromUTF8? contents = some text ∧
    Toml.readDocument text ≠ .error .outsized ∧ Toml.readDocument text ≠ .error .tooDeep

/-- How loading a document of some kind from a path ends, by what is at the path. -/
structure LoadEnds {α : Type} (fs : FileSystem) (kind : DocumentKind) (schema : Data → Checked α)
    (path : Path) (outcome : Except LoadFault α) : Prop where
  /-- A fault is one of those for which there is a message. -/
  told : ∀ fault, outcome = .error fault → (fault.message? kind).isSome = true
  absent : outcome = .error (.absent path) ↔ fs.existsAt path = .ok false
  unreadable : (∃ failure, outcome = .error (.unreadable failure)) ↔
    fs.existsAt path = .ok true ∧ fs.isFile path = .ok false
  malformed : (∃ reason, outcome = .error (.malformed reason)) ↔
    ∃ contents, fs.read path = .ok contents ∧ ∀ data, ¬ HoldsDocument contents data
  invalid : ∀ issues, outcome = .error (.invalid issues) ↔
    ∃ contents data, fs.read path = .ok contents ∧ HoldsDocument contents data ∧
      schema data = .error issues
  loaded : ∀ value, outcome = .ok value ↔
    ∃ contents data, fs.read path = .ok contents ∧ HoldsDocument contents data ∧
      schema data = .ok value

section Loading

variable {α : Type} {fs : FileSystem} {schema : Data → Checked α} {path : Path}
  {contents : ByteArray}

/-! ### Documents -/

/-- The reader decides on every text in which there is room for the values. -/
theorem readerDecides_of_within {text : String} (htext : String.fromUTF8? contents = some text)
    (h : Toml.Within Toml.roomForValues text.toList) : ReaderDecides contents := by
  have hdecides := Toml.readDocument_decides h
  refine ⟨text, htext, ?_, ?_⟩ <;> intro heq <;> rw [heq] at hdecides <;> cases hdecides

/-- Contents that the reader decides on hold one document or none. -/
theorem decodeDocument_cases (h : ReaderDecides contents) :
    (∃ reason, decodeDocument schema contents = .error (.malformed reason) ∧
      ∀ data, ¬ HoldsDocument contents data) ∨
    ∃ data, HoldsDocument contents data ∧ (∀ data', HoldsDocument contents data' → data' = data) ∧
      decodeDocument schema contents = (schema data).mapError .invalid := by
  obtain ⟨text, htext, houtsized, hdeep⟩ := h
  have hholds : ∀ data, HoldsDocument contents data ↔ Toml.readDocument text = .ok data := by
    intro data
    constructor
    · rintro ⟨text', htext', hread⟩
      obtain rfl := Option.some.inj (htext.symm.trans htext')
      exact hread
    · exact fun hread => ⟨text, htext, hread⟩
  rw [decodeDocument, htext]
  cases hread : Toml.readDocument text with
  | error fault =>
    cases fault with
    | malformed reason =>
      refine .inl ⟨reason, by simp only [hread], fun data hdata => ?_⟩
      simp [(hholds data).1 hdata] at hread
    | outsized => exact absurd hread houtsized
    | tooDeep => exact absurd hread hdeep
  | ok data =>
    refine .inr ⟨data, (hholds data).2 hread, fun data' hdata' => ?_, ?_⟩
    · exact Except.ok.inj (((hholds data').1 hdata').symm.trans hread)
    · simp only [hread]
      cases schema data <;> rfl

/-! ### Files -/

namespace FileSystem

theorem entryAt_of_existsAt (h : fs.existsAt path = .ok true) :
    ∃ key node, fs.entryAt true path = .ok (key, node) := by
  unfold existsAt holds at h
  split at h
  · rename_i key node hentry
    exact ⟨key, node, hentry⟩
  · simp at h
  · split at h <;> simp at h

theorem existsAt_of_read (h : fs.read path = .ok contents) : fs.existsAt path = .ok true := by
  unfold read at h
  cases hentry : fs.entryAt true path with
  | error fault => simp [hentry, bind, Except.bind] at h
  | ok found => exact existsAt_of_entryAt hentry

theorem read_cases (h : fs.existsAt path = .ok true) :
    (fs.isFile path = .ok true ∧ ∃ contents, fs.read path = .ok contents) ∨
      fs.isFile path = .ok false ∧ ∃ failure, fs.read path = .error (.call failure) := by
  obtain ⟨key, node, hentry⟩ := entryAt_of_existsAt h
  rw [isFile, holds, read, hentry]
  cases node with
  | file contents => exact .inl ⟨rfl, contents, rfl⟩
  | directory => exact .inr ⟨rfl, _, rfl⟩
  | link target => exact .inr ⟨rfl, _, rfl⟩

end FileSystem

/-! ### Loading -/

theorem loadEnds_of_absent (kind : DocumentKind) (h : fs.existsAt path = .ok false) :
    LoadEnds fs kind schema path (.error (.absent path)) := by
  have hread : ∀ contents, fs.read path ≠ .ok contents := fun contents hread => by
    simp [FileSystem.existsAt_of_read hread] at h
  constructor <;> simp [h, hread, LoadFault.message?]

theorem loadEnds_of_unreadable (kind : DocumentKind) {failure : CallFailure}
    (h : fs.existsAt path = .ok true) (hfile : fs.isFile path = .ok false)
    (hread : fs.read path = .error (.call failure)) :
    LoadEnds fs kind schema path (.error (.unreadable failure)) := by
  constructor <;> simp [h, hfile, hread, LoadFault.message?]

theorem loadEnds_of_read (kind : DocumentKind) (hfile : fs.isFile path = .ok true)
    (hread : fs.read path = .ok contents) (hdecides : ReaderDecides contents) :
    LoadEnds fs kind schema path (decodeDocument schema contents) := by
  have hexists := FileSystem.existsAt_of_read hread
  rcases @decodeDocument_cases α schema contents hdecides with
    ⟨reason, hdecoded, hnone⟩ | ⟨data, hholds, hunique, hdecoded⟩
  · rw [hdecoded]
    constructor <;> simp [hexists, hfile, hread, hnone, LoadFault.message?]
  · -- the schema is asked about the one document that the contents hold
    have hasked : ∀ checked : Checked α, schema data = checked ↔
        ∃ contents' data', fs.read path = .ok contents' ∧ HoldsDocument contents' data' ∧
          schema data' = checked := by
      intro checked
      constructor
      · exact fun hchecked => ⟨contents, data, hread, hholds, hchecked⟩
      · rintro ⟨contents', data', hread', hdata', hchecked⟩
        obtain rfl := Except.ok.inj (hread.symm.trans hread')
        rwa [← hunique data' hdata']
    have hmalformed : ¬ ∃ contents', fs.read path = .ok contents' ∧
        ∀ data, ¬ HoldsDocument contents' data := by
      rintro ⟨contents', hread', hnone⟩
      obtain rfl := Except.ok.inj (hread.symm.trans hread')
      exact hnone data hholds
    have hfault {fault : LoadFault} : (schema data).mapError LoadFault.invalid = .error fault ↔
        ∃ issues, schema data = .error issues ∧ LoadFault.invalid issues = fault :=
      mapError_eq_error
    rw [hdecoded]
    refine ⟨fun fault hfails => ?_, iff_of_false (fun hfails => ?_) (by simp [hexists]),
      iff_of_false ?_ (by simp [hfile]), iff_of_false ?_ hmalformed, fun issues => ?_,
      fun value => mapError_eq_ok.trans (hasked _)⟩
    · obtain ⟨issues, -, rfl⟩ := hfault.1 hfails
      rfl
    · obtain ⟨issues, -, heq⟩ := hfault.1 hfails
      cases heq
    · rintro ⟨failure, hfails⟩
      obtain ⟨issues, -, heq⟩ := hfault.1 hfails
      cases heq
    · rintro ⟨reason, hfails⟩
      obtain ⟨issues, -, heq⟩ := hfault.1 hfails
      cases heq
    · refine hfault.trans (Iff.trans ?_ (hasked _))
      simp

/-- A document is loaded, or it is not for a reason that follows from what is at the path, if it can
be told whether something is there and the reader decides on the contents. -/
theorem load_ends {there : Bool} (kind : DocumentKind) (schema : Data → Checked α)
    (hexists : fs.existsAt path = .ok there)
    (hdecides : ∀ contents, fs.read path = .ok contents → ReaderDecides contents) :
    LoadEnds fs kind schema path (fs.load schema path) := by
  cases there with
  | false =>
    rw [FileSystem.load, hexists]
    exact loadEnds_of_absent kind hexists
  | true =>
    rw [FileSystem.load, hexists]
    rcases FileSystem.read_cases hexists with ⟨hfile, contents, hread⟩ | ⟨hfile, failure, hread⟩
    · simp only [hread]
      exact loadEnds_of_read kind hfile hread (hdecides contents hread)
    · simp only [hread]
      exact loadEnds_of_unreadable kind hexists hfile hread

theorem load_notText (schema : Data → Checked α) (hread : fs.read path = .ok contents)
    (htext : String.fromUTF8? contents = none) : fs.load schema path = .error .notText := by
  rw [FileSystem.load, FileSystem.existsAt_of_read hread]
  simp only [hread, decodeDocument, htext]

/-- Configurations and lock documents are loaded, or they are not for a reason that follows from
what is at the path, if it can be told whether something is there and the reader decides on the
contents. -/
theorem loadConfig_loadLock_ends {there : Bool} (hexists : fs.existsAt path = .ok there)
    (hdecides : ∀ contents, fs.read path = .ok contents → ReaderDecides contents) :
    LoadEnds fs .config Config.ofData path (fs.loadConfig path) ∧
      LoadEnds fs .lock Lock.ofData path (fs.loadLock path) :=
  ⟨load_ends .config Config.ofData hexists hdecides, load_ends .lock Lock.ofData hexists hdecides⟩

end Loading

/-! ### Files with and without a document -/

/-- A document with a key that configurations do not have. -/
def strangeText : String := "x = 1\n"

/-- A directory with a file of that document and one whose contents are no text. -/
def besideDocument : FileSystem where
  store := ((Store.empty.insert [] "w" .directory).insert ["w"] "c.toml"
    (.file strangeText.toUTF8)).insert ["w"] "raw" (.file ⟨#[0xff]⟩)
  here := ⟨["w"], 0⟩

/-- The document does not satisfy the schema of configurations, and it is a lock document. -/
theorem loadConfig_loadLock_ends_strange :
    besideDocument.existsAt (Path.ofString "c.toml") = .ok true ∧
      (∀ contents, besideDocument.read (Path.ofString "c.toml") = .ok contents →
        ReaderDecides contents) ∧
      (∃ issues, besideDocument.loadConfig (Path.ofString "c.toml") = .error (.invalid issues)) ∧
      ∃ lock, besideDocument.loadLock (Path.ofString "c.toml") = .ok lock := by
  have hread : besideDocument.read (Path.ofString "c.toml") = .ok strangeText.toUTF8 :=
    ok_of_toOption (by decide +kernel)
  have hexists := FileSystem.existsAt_of_read hread
  have htext := Config.fromUTF8?_toUTF8 strangeText
  have hdecides : ∀ contents, besideDocument.read (Path.ofString "c.toml") = .ok contents →
      ReaderDecides contents := by
    intro contents hcontents
    obtain rfl := Except.ok.inj (hread.symm.trans hcontents)
    exact readerDecides_of_within htext ⟨by decide +kernel, by decide +kernel⟩
  obtain ⟨hconfig, hlock⟩ := loadConfig_loadLock_ends hexists hdecides
  have hchecked : (Toml.readDocument strangeText).toOption.any (fun data =>
      (Config.ofData data).toOption.isNone && (Lock.ofData data).toOption.isSome) = true := by
    decide +kernel
  obtain ⟨data, hdata, hboth⟩ := (Option.any_eq_true _ _).1 hchecked
  have hholds : HoldsDocument strangeText.toUTF8 data := ⟨strangeText, htext, ok_of_toOption hdata⟩
  rw [Bool.and_eq_true] at hboth
  refine ⟨hexists, hdecides, ?_, ?_⟩
  · cases hissues : Config.ofData data with
    | error issues => exact ⟨issues, (hconfig.invalid issues).2 ⟨_, data, hread, hholds, hissues⟩⟩
    | ok config => simp [hissues, Except.toOption] at hboth
  · obtain ⟨lock, hvalue⟩ := Option.isSome_iff_exists.1 hboth.2
    exact ⟨lock, (hlock.loaded lock).2 ⟨_, data, hread, hholds, ok_of_toOption hvalue⟩⟩

/-- A file whose contents are no text is at its path, and no message tells that no document can be
loaded from there. -/
theorem loadConfig_loadLock_escape :
    besideDocument.existsAt (Path.ofString "raw") = .ok true ∧
      besideDocument.loadConfig (Path.ofString "raw") = .error .notText ∧
      besideDocument.loadLock (Path.ofString "raw") = .error .notText ∧
      ∀ kind, LoadFault.notText.message? kind = none := by
  have hread : besideDocument.read (Path.ofString "raw") = .ok ⟨#[0xff]⟩ :=
    ok_of_toOption (by decide +kernel)
  have htext : String.fromUTF8? ⟨#[0xff]⟩ = none := by decide +kernel
  exact ⟨FileSystem.existsAt_of_read hread, load_notText Config.ofData hread htext,
    load_notText Lock.ofData hread htext, fun kind => rfl⟩

end VendorTree
