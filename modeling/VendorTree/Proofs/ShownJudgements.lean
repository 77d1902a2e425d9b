import VendorTree.Proofs.PlainTexts
import VendorTree.Proofs.TableLines
import VendorTree.Proofs.VendorRuns

/-!
# Judgements in a table

The command that checks names judges each of them by itself and prints the judgements in a table.
What its row says of a name is what the policies on kinds of files do with the file: each of them
takes the file from a listing that holds nothing else just if the row says so, and they never both
do. All that is printed is read as markup, though, and the names stand in it as they are.
-/

namespace VendorTree

open CommandLine (readRequest)
open Console (IsLine hasMarkup trimmed)

/-! ### Base names and extensions -/

section Names

variable {separator : Char} {s t : List Char}

theorem infix_of_mem_pieces : (∀ piece ∈ Text.pieces separator s, piece <:+: s) ∧
    ∀ first rest, Text.pieces separator s = first :: rest → first <+: s := by
  induction s with
  | nil => simp [Text.pieces]
  | cons c cs ih =>
    obtain ⟨hpieces, hfirst⟩ := ih
    by_cases hc : c = separator
    · simp only [Text.pieces, if_pos hc]
      refine ⟨List.forall_mem_cons.2 ⟨List.nil_infix, fun piece hpiece => ?_⟩, ?_⟩
      · exact (hpieces piece hpiece).trans (List.suffix_cons c cs).isInfix
      · rintro first rest hsplit
        rw [← (List.cons.inj hsplit).1]
        exact List.nil_prefix
    · cases hsplit : Text.pieces separator cs with
      | nil =>
        have halone : [c] <+: c :: cs := List.prefix_append [c] cs
        simp [Text.pieces, hc, hsplit, halone, halone.isInfix]
      | cons first rest =>
        rw [hsplit] at hpieces
        have hlonger : c :: first <+: c :: cs :=
          List.cons_prefix_cons.2 ⟨rfl, hfirst first rest hsplit⟩
        simp only [Text.pieces, if_neg hc, hsplit]
        refine ⟨List.forall_mem_cons.2 ⟨hlonger.isInfix, fun piece hpiece => ?_⟩, ?_⟩
        · exact (hpieces piece (List.mem_cons_of_mem _ hpiece)).trans
            (List.suffix_cons c cs).isInfix
        · rintro first' rest' hsplit'
          rwa [← (List.cons.inj hsplit').1]

/-- What follows the last separator belongs to the last piece. -/
theorem pieces_append_of_notMem (ht : separator ∉ t) : ∃ front last,
    Text.pieces separator s = front ++ [last] ∧
      Text.pieces separator (s ++ t) = front ++ [last ++ t] := by
  induction s with
  | nil => exact ⟨[], [], rfl, Console.pieces_of_notMem ht⟩
  | cons c cs ih =>
    obtain ⟨front, last, hcs, hcst⟩ := ih
    by_cases hc : c = separator
    · exact ⟨[] :: front, last, by simp [Text.pieces, hc, hcs], by simp [Text.pieces, hc, hcst]⟩
    · cases front with
      | nil =>
        exact ⟨[], c :: last, by simp [Text.pieces, hc, hcs], by simp [Text.pieces, hc, hcst]⟩
      | cons piece front =>
        exact ⟨(c :: piece) :: front, last, by simp [Text.pieces, hc, hcs],
          by simp [Text.pieces, hc, hcst]⟩

theorem fromLastDot_suffix (name : List Char) : fromLastDot name <:+ name := by
  unfold fromLastDot
  split
  · rename_i hdot
    have hsplit :=
      List.takeWhile_append_dropWhile (p := fun c => decide (c ≠ '.')) (l := name.reverse)
    cases hrest : name.reverse.dropWhile fun c => decide (c ≠ '.') with
    | nil =>
      have hnone := List.dropWhile_eq_nil_iff.1 hrest '.' (List.mem_reverse.2 hdot)
      simp at hnone
    | cons d rest =>
      have hd : d = '.' := by
        have hhead := List.head?_dropWhile_not (fun c => decide (c ≠ '.')) name.reverse
        rw [hrest] at hhead
        simpa using hhead
      rw [hrest, hd] at hsplit
      have hreversed := congrArg List.reverse hsplit
      simp only [List.reverse_append, List.reverse_cons, List.reverse_reverse, List.append_assoc,
        List.singleton_append] at hreversed
      exact ⟨rest.reverse, hreversed⟩
  · exact List.nil_suffix

theorem extension_within (name : String) : (extension name).toList <:+: name.toList := by
  rw [extension, String.toList_ofList]
  refine (fromLastDot_suffix _).isInfix.trans ?_
  have hlast : (Path.ofString name).name = ((pathNames name).getLast?).getD "" := rfl
  rw [hlast]
  cases hbase : (pathNames name).getLast? with
  | none => exact List.nil_infix
  | some base =>
    obtain ⟨piece, hpiece, rfl⟩ := List.mem_map.1 (List.mem_filter.1 (List.mem_of_getLast? hbase)).1
    rw [Option.getD_some, String.toList_ofList]
    exact infix_of_mem_pieces.1 piece hpiece

/-- A test file is a file that a build may read, whatever stands in front of the end of its name. -/
theorem isBuildFile_of_isTestFile {file : String} (h : isTestFile file = true) :
    isBuildFile file = true := by
  obtain ⟨front, hfront⟩ := List.isSuffixOf_iff_suffix.1 h
  obtain ⟨outer, last, -, hpieces⟩ :=
    @pieces_append_of_notMem '/' front testEnding.toList (by decide)
  rw [hfront] at hpieces
  have hname : (Path.ofString file).name = String.ofList (last ++ testEnding.toList) := by
    have hlast : (Path.ofString file).name = ((pathNames file).getLast?).getD "" := rfl
    have hlonger (short : String) (hshort : short.toList.length < testEnding.toList.length) :
        String.ofList (last ++ testEnding.toList) ≠ short := by
      intro heq
      have hlength := congrArg (fun text => text.toList.length) heq
      simp only [String.toList_ofList, List.length_append] at hlength
      omega
    have hkept : [String.ofList (last ++ testEnding.toList)].filter
        (fun n => decide (n ≠ "" ∧ n ≠ ".")) = [String.ofList (last ++ testEnding.toList)] := by
      refine List.filter_eq_self.2 fun n hn => ?_
      rw [List.mem_singleton.1 hn]
      exact decide_eq_true ⟨hlonger "" (by decide), hlonger "." (by decide)⟩
    rw [hlast, pathNames, hpieces, List.map_append, List.map_singleton, List.filter_append, hkept,
      List.getLast?_concat, Option.getD_some]
  have hgo : ".go".toList <:+ last ++ testEnding.toList :=
    List.IsSuffix.trans (by decide) (List.suffix_append last testEnding.toList)
  rw [isBuildFile, extension, hname, String.toList_ofList, fromLastDot_of_go hgo]
  decide +kernel

end Names

/-! ### Rows -/

/-- The listing of a directory that holds one file. -/
def Listing.ofFile (root : Path) (file : String) : Listing := { root, files := [file] }

/-- A cell says that something is removed, and this is so, or that it is kept, and this is so. -/
def TellsRemoval (cell : String) (removed : Prop) : Prop :=
  cell = "remove" ∧ removed ∨ cell = "keep" ∧ ¬removed

/-- A truth value as it is shown. -/
def answerText (b : Bool) : String := if b then "yes" else "no"

/-- A verdict as it is shown. -/
def verdictText (removed : Bool) : String := if removed then "remove" else "keep"

/-- The text of the cell with the extension of a name. -/
def extensionText (name : String) : String := if extension name = "" then "-" else extension name

/-- The row of a name has the name in its first cell and the extension in its second one, and its
last two cells foretell what becomes of the file in any directory where it is the only one: whether
the policy on files that no build reads collects it, and whether the policy on tests does. Not both
do. -/
def Foretells (name row : String) : Prop :=
  ∃ nonGo goTests : String,
    row = "|".intercalate [name, trimmed (extensionText name).toList, answerText (isBuildFile name),
      answerText (PreservationRule.standard.keeps name), nonGo, goTests] ∧
    (∀ root : Path, TellsRemoval nonGo
      (root.join name ∈ (Listing.ofFile root name).nonGoFiles .standard)) ∧
    (∀ root : Path, TellsRemoval goTests (root.join name ∈ (Listing.ofFile root name).testFiles)) ∧
    ¬(nonGo = "remove" ∧ goTests = "remove")

/-- A name that is laid out as it is, with its extension: both are lines, and there are no spaces at
the ends of the name. -/
structure IsPlainName (name : String) : Prop where
  line : IsLine name.toList
  extension : IsLine (extension name).toList
  trimmed : Text.trim (· = ' ') name.toList = name.toList

theorem tellsRemoval_verdictText {removed : Bool} {p : Prop} (h : removed = true ↔ p) :
    TellsRemoval (verdictText removed) p := by
  cases removed with
  | true => exact .inl ⟨rfl, h.1 rfl⟩
  | false => exact .inr ⟨rfl, fun hp => Bool.false_ne_true (h.2 hp)⟩

theorem render_yesNo (b : Bool) : Console.render (Judgement.yesNo b) = .ok (answerText b) :=
  ok_of_toOption (by revert b; decide +kernel)

theorem render_verdict (removed : Bool) :
    Console.render (Judgement.verdict removed) = .ok (verdictText removed) :=
  ok_of_toOption (by revert removed; decide +kernel)

/-- The cells of the row of a name as they are shown. -/
def judgementTexts (name : String) : List String :=
  [name, extensionText name, answerText (isBuildFile name),
    answerText (PreservationRule.standard.keeps name), verdictText (Judgement.ofName name).nonGo,
    verdictText (isTestFile name)]

section Row

variable {name : String} (h : IsPlainName name)

include h

theorem isLine_extensionText : IsLine (extensionText name).toList := by
  unfold extensionText
  split
  · decide +kernel
  · exact h.extension

theorem isLine_judgementTexts : ∀ text ∈ judgementTexts name, IsLine text.toList := by
  have hanswer : ∀ b, IsLine (answerText b).toList := by decide +kernel
  have hverdict : ∀ b, IsLine (verdictText b).toList := by decide +kernel
  simp only [judgementTexts, List.forall_mem_cons, List.not_mem_nil, false_implies, implies_true,
    and_true]
  exact ⟨h.line, isLine_extensionText h, hanswer _, hanswer _, hverdict _, hverdict _⟩

/-- The cells of the row of a name without markup are shown as they are, less the tags of styles. -/
theorem render_judgementTexts (hmarkup : hasMarkup name.toList = false) :
    List.Forall₂ (fun cell text => Console.render cell = .ok text) (Judgement.ofName name).row
      (judgementTexts name) := by
  have hplain {text : String} (hline : IsLine text.toList) (hnone : hasMarkup text.toList = false) :
      Console.render text = .ok text :=
    Console.render_eq_self_iff.2 ⟨hnone, fun c hc => (hline.plain c hc).2.1⟩
  have hextension : hasMarkup (extensionText name).toList = false := by
    unfold extensionText
    split
    · decide
    · exact Console.hasMarkup_of_infix hmarkup (extension_within name)
  simp only [Judgement.row, judgementTexts, Judgement.ofName, List.forall₂_cons, List.Forall₂.nil,
    and_true]
  exact ⟨hplain h.line hmarkup, hplain (isLine_extensionText h) hextension, render_yesNo _,
    render_yesNo _, render_verdict _, render_verdict _⟩

/-- The row of a name, put together from its cells, says what becomes of the file. -/
theorem foretells_judgementTexts : Foretells name
    ("|".intercalate ((judgementTexts name).map fun text => trimmed text.toList)) := by
  have hname : trimmed name.toList = name := by
    rw [trimmed, h.trimmed, String.ofList_toList]
  have hanswer : ∀ b, trimmed (answerText b).toList = answerText b := by decide +kernel
  have hverdict : ∀ b, trimmed (verdictText b).toList = verdictText b := by decide +kernel
  refine ⟨verdictText (Judgement.ofName name).nonGo, verdictText (isTestFile name), ?_,
    fun root => ?_, fun root => ?_, ?_⟩
  · simp only [judgementTexts, List.map_cons, List.map_nil, hname, hanswer, hverdict]
  · apply tellsRemoval_verdictText
    simp [Judgement.ofName, Listing.ofFile, Listing.nonGoFiles, Listing.absolute]
  · apply tellsRemoval_verdictText
    simp [Listing.ofFile, Listing.testFiles, Listing.absolute]
  · rintro ⟨hnonGo, htests⟩
    cases htest : isTestFile name with
    | false =>
      rw [htest] at htests
      exact absurd htests (by decide)
    | true =>
      have hbuild := isBuildFile_of_isTestFile htest
      simp [Judgement.ofName, hbuild, verdictText] at hnonGo

end Row

/-! ### The command -/

/-- The table of the judgements on plain names without markup has one line for each name, in order,
that says what becomes of it. -/
theorem judgementTable_lines {names : List String} (hplain : ∀ name ∈ names, IsPlainName name)
    (hmarkup : ∀ name ∈ names, hasMarkup name.toList = false) :
    (judgementTable names).lines = .ok ("File Classification" ::
      "Name|Ext|Build|Preserved|non-go|go-tests" :: names.map fun name =>
        "|".intercalate ((judgementTexts name).map fun text => trimmed text.toList)) := by
  have hshown : List.Forall₂ (List.Forall₂ fun cell text => Console.render cell = .ok text)
      (judgementTable names).rows (names.map judgementTexts) := by
    rw [judgementTable, List.forall₂_map_left_iff, List.forall₂_map_right_iff, List.forall₂_same]
    exact fun name hname => render_judgementTexts (hplain name hname) (hmarkup name hname)
  have hlines := Console.Table.lines_of_forall₂ (by simp [judgementTable]) hshown (by
    simp [judgementTable, judgementTexts]) (by
      simp only [List.forall_mem_map]
      exact fun name hname => isLine_judgementTexts (hplain name hname))
  rw [hlines, List.map_map]
  rfl

theorem readRequest_check {names : List String} (hne : names ≠ []) :
    readRequest ("check" :: "--" :: names) = .ok ({}, .check names) := by
  obtain ⟨name, rest, rfl⟩ := List.exists_cons_of_ne_nil hne
  rfl

/-- Asked for names, the program prints the table of their judgements or fails for its markup. -/
theorem runProgram_check {env : Environment} {tools : Tools FileSystem} {fs : FileSystem}
    {names : List String} (hne : names ≠ []) : runProgram env tools ("check" :: "--" :: names) fs =
      (Command.printTable (judgementTable names)).run { files := fs } :=
  Command.runProgram_of_request (readRequest_check hne)

/-- Asked for plain names without markup, the program ends well and prints one row for each name, in
order. The row shows the name and its extension, and foretells what the policies on kinds of files
do with a file of that name. Nothing in the file system is changed. -/
theorem runProgram_check_foretells (env : Environment) (tools : Tools FileSystem) (fs : FileSystem)
    {names : List String} (hne : names ≠ []) (hplain : ∀ name ∈ names, IsPlainName name)
    (hmarkup : ∀ name ∈ names, hasMarkup name.toList = false) :
    let ended := runProgram env tools ("check" :: "--" :: names) fs
    exitCode ended.1 = 0 ∧ ended.2.files = fs ∧
      ∃ rows, ended.2.lines = ("File Classification" ::
          "Name|Ext|Build|Preserved|non-go|go-tests" :: rows).map (⟨.output, ·⟩) ∧
        List.Forall₂ Foretells names rows := by
  intro ended
  have hended : ended = _ := runProgram_check hne
  rw [Command.printTable, judgementTable_lines hplain hmarkup] at hended
  rw [hended]
  refine ⟨rfl, rfl, _, rfl, ?_⟩
  rw [List.forall₂_map_right_iff, List.forall₂_same]
  exact fun name hname => foretells_judgementTexts (hplain name hname)

/-- A file system with nothing but a directory for the process. -/
def emptyTree : FileSystem where
  store := Store.empty.insert [] "w" .directory
  here := ⟨["w"], 0⟩

/-- Names of different kinds, among them one with brackets that are no tag. -/
def plainNames : List String := ["a[1].go", "x_test.go", "LICENSE.md", "doc/Ünïcode name", ""]

theorem runProgram_check_foretells_names :
    let ended := runProgram ⟨"/w/home", none⟩ (diskTools [] .standard)
      ("check" :: "--" :: plainNames) emptyTree
    plainNames ≠ [] ∧ (∀ name ∈ plainNames, IsPlainName name ∧ hasMarkup name.toList = false) ∧
      exitCode ended.1 = 0 ∧ ended.2.files = emptyTree ∧
      ∃ rows, ended.2.lines = ("File Classification" ::
          "Name|Ext|Build|Preserved|non-go|go-tests" :: rows).map (⟨.output, ·⟩) ∧
        List.Forall₂ Foretells plainNames rows := by
  have hplain : ∀ name ∈ plainNames, IsPlainName name := by
    have hall : ∀ name ∈ plainNames, IsLine name.toList ∧ IsLine (extension name).toList ∧
        Text.trim (· = ' ') name.toList = name.toList := by decide +kernel
    exact fun name hname => ⟨(hall name hname).1, (hall name hname).2.1, (hall name hname).2.2⟩
  have hmarkup : ∀ name ∈ plainNames, hasMarkup name.toList = false := by decide +kernel
  have hne : plainNames ≠ [] := List.cons_ne_nil _ _
  exact ⟨hne, fun name hname => ⟨hplain name hname, hmarkup name hname⟩,
    runProgram_check_foretells ⟨"/w/home", none⟩ (diskTools [] .standard) emptyTree hne hplain
      hmarkup⟩

/-- A tag in a name is not shown, though the name is plain otherwise: its row is that of another
name. -/
theorem runProgram_check_loses_tag :
    let ended := runProgram ⟨"/w/home", none⟩ (diskTools [] .standard) ["check", "--", "a[b].go"]
      emptyTree
    IsPlainName "a[b].go" ∧ ended.1 = .ok () ∧
      ended.2.lines = ["File Classification", "Name|Ext|Build|Preserved|non-go|go-tests",
        "a.go|.go|yes|no|keep|keep"].map (⟨.output, ·⟩) ∧
      ¬ Foretells "a[b].go" "a.go|.go|yes|no|keep|keep" := by
  intro ended
  have hrows : (judgementTable ["a[b].go"]).rows = [["a[b].go", ".go", "yes", "[muted]no[/]",
      "[kept]keep[/]", "[kept]keep[/]"]] := by decide +kernel
  have hname : Console.render "a[b].go" = .ok "a.go" := ok_of_toOption (by decide +kernel)
  have hextension : Console.render ".go" = .ok ".go" := Console.render_of_notMem (by decide)
  have hshown : List.Forall₂ (List.Forall₂ fun cell text => Console.render cell = .ok text)
      (judgementTable ["a[b].go"]).rows [["a.go", ".go", "yes", "no", "keep", "keep"]] := by
    simp only [hrows, List.forall₂_cons, List.Forall₂.nil, and_true]
    exact ⟨hname, hextension, render_yesNo true, render_yesNo false, render_verdict false,
      render_verdict false⟩
  have hlines := Console.Table.lines_of_forall₂ (by simp [judgementTable]) hshown
    (by simp [judgementTable]) (by decide +kernel)
  have hended : ended = _ := runProgram_check (by simp)
  rw [Command.printTable, hlines] at hended
  rw [hended]
  refine ⟨⟨by decide +kernel, by decide +kernel, by decide +kernel⟩, rfl, ?_, ?_⟩
  · decide +kernel
  · rintro ⟨nonGo, goTests, hrow, -⟩
    have hchars := congrArg (fun row : String => row.toList[1]?) hrow
    simp at hchars

end VendorTree
