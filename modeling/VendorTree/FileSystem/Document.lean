import VendorTree.FileSystem.Image
import VendorTree.Schema
import VendorTree.Toml.Reader

/-!
# Trees described by documents

A document can describe a directory tree: it lists directories, gives the contents of files and the
targets of links, all by their paths from the root. Directories above an entry need no mention.
-/

namespace VendorTree

namespace Item

/-- The path from the root that a text denotes. -/
def rooted (text : String) : Path := (Path.ofString "/").join text

/-- The items that the fields of a table describe, each with a text. -/
def ofFields (make : Path → String → Item) : Data → Checked (List Item)
  | .table fields => fields.foldr (fun (key, d) items =>
      (fun text rest => make (rooted key) text :: rest)
        <$> Checked.under key d.toText <*> items) (.ok [])
  | d => .reject (.modelType "Table") d

def ofData : Data → Checked (List Item)
  | .table fields =>
    (fun directories files links (_ : Unit) => directories ++ files ++ links)
      <$> TableFields.checkOr fields ["directories"] [] (Data.toListOf fun d =>
        (fun text => Item.directory (rooted text)) <$> d.toText)
      <*> TableFields.checkOr fields ["files"] [] (ofFields fun path text =>
        .file path text.toUTF8)
      <*> TableFields.checkOr fields ["links"] [] (ofFields .link)
      <*> TableFields.checkNoExtra fields [["directories"], ["files"], ["links"]]
  | d => .reject (.modelType "Tree") d

end Item

/-- The file system that a document describes, if it describes one. The current directory is the
root. -/
def FileSystem.ofDocument? (text : String) : Option FileSystem :=
  match Toml.readDocument text with
  | .error _ => none
  | .ok d =>
    match Item.ofData d with
    | .ok items => some (({ store := Store.empty, here := ⟨[], 0⟩ } : FileSystem).addAll items)
    | .error _ => none

end VendorTree
