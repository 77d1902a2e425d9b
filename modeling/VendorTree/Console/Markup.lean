import VendorTree.Console.Literal.Basic
import VendorTree.Console.Style

/-!
# Markup

Texts for the console carry tags between square brackets. An opening tag names a style, or a handler
with its arguments, and a closing tag ends what it names or, where it names nothing, what was opened
last. A backslash in front of a tag makes it a part of the text. Tags are left out of the text that
is shown. A tag that closes nothing is an error, and a tag that is never closed is none; the
arguments of a handler are looked at when it is closed.
-/

namespace VendorTree.Console

inductive MarkupFault
  /-- A closing tag ends nothing. It names a style, or none. -/
  | unopened (style : String)
  | arguments (text : String)
  | component (colour : String)
  deriving DecidableEq, Repr

def orComponent {α : Type} (x : Except ComponentFault α) : Except MarkupFault α :=
  x.mapError fun fault => .component fault.colour

/-! ### Pieces -/

inductive Piece
  | text (chars : List Char)
  /-- An opening tag: the name, and what follows an equals sign. -/
  | opening (name : List Char) (argument : Option (List Char))
  /-- A closing tag with its name, which may be empty. -/
  | closing (name : List Char)
  deriving DecidableEq

def startsTag (c : Char) : Bool := ('a' ≤ c && c ≤ 'z') || c = '#' || c = '/' || c = '@'

/-- What stands between the brackets of the tag that a text begins with. -/
def tagAt? : List Char → Option (List Char)
  | '[' :: c :: cs =>
    let inner := cs.takeWhile fun d => d ≠ '[' && d ≠ ']'
    if startsTag c && (cs.drop inner.length).head? = some ']' then some (c :: inner) else none
  | _ => none

def Piece.ofTag (inner : List Char) : Piece :=
  let name := inner.takeWhile (· ≠ '=')
  match name with
  | '/' :: style => .closing (Text.trim Text.isBlank style)
  | _ => .opening name (if '=' ∈ inner then some (inner.drop (name.length + 1)) else none)

def backslashes (s : List Char) : Nat := (s.takeWhile (· = '\\')).length

/-- The parts of a text after its first `skipped` characters. Of the backslashes in front of a tag
each pair is one backslash, and one without a partner makes the tag a part of the text. Elsewhere a
backslash in front of a bracket is dropped. -/
def piecesAfter : (skipped : Nat) → List Char → List Piece
  | _, [] => []
  | skipped + 1, _ :: cs => piecesAfter skipped cs
  | 0, c :: cs =>
    let escapes := backslashes (c :: cs)
    match tagAt? ((c :: cs).drop escapes) with
    | some inner =>
      .text (List.replicate (escapes / 2) '\\') ::
        (if escapes % 2 = 1 then .text ('[' :: inner ++ [']']) else .ofTag inner) ::
        piecesAfter (escapes + inner.length + 1) cs
    | none =>
      if c = '\\' && cs.head? = some '[' then piecesAfter 0 cs else .text [c] :: piecesAfter 0 cs

/-! ### Tags -/

/-- A part of the shown text, between two positions, with the description of its style. -/
structure Span where
  start : Nat
  stop : Nat
  style : List Char

structure OpenTag where
  /-- The name of the style or of the handler. -/
  name : String
  argument : Option (List Char)
  start : Nat

namespace OpenTag

def isHandler (t : OpenTag) : Bool := t.name.toList.head? = some '@'

/-- The style that the tag describes: its name, and what was given to it. -/
def style (t : OpenTag) : List Char :=
  t.name.toList ++ match t.argument with
    | some argument => ' ' :: argument
    | none => []

def span (t : OpenTag) (stop : Nat) : Span := ⟨t.start, stop, t.style⟩

/-- The arguments that are given to a handler, perhaps after the name of a function. A name alone
stands for a call without arguments. -/
def callArguments (given : List Char) : List Char :=
  let given := Text.trim Text.isBlank given
  match given.dropWhile fun c => Text.isWordChar c || c = '.' with
  | [] => ['(', ')']
  | '(' :: rest =>
    if rest.getLast? = some ')' && !rest.contains '\n' then '(' :: rest else given
  | _ => given

/-- Close a tag. A style covers the text since it was opened; the arguments of a handler must be a
literal. -/
def close (t : OpenTag) (stop : Nat) : Except MarkupFault (List Span) :=
  if !t.isHandler then .ok [t.span stop]
  else match t.argument with
    | none | some [] => .ok []
    | some given =>
      if Literal.isLiteral (callArguments given) then .ok []
      else .error (.arguments (String.ofList given))

/-- The open tag with a name, or the last one opened where the name is empty, and the other ones. -/
def take? (name : String) : List OpenTag → Option (OpenTag × List OpenTag)
  | [] => none
  | t :: rest =>
    if name = "" ∨ t.name = name then some (t, rest)
    else (take? name rest).map fun (found, rest) => (found, t :: rest)

end OpenTag

/-! ### Shown texts -/

/-- A text to be shown, and its parts with a style. -/
structure Marked where
  text : List Char
  spans : List Span

/-- A character that a console does not show but obeys: bell, backspace, vertical tab, form feed and
carriage return. -/
def isControl (c : Char) : Bool := c.toNat ∈ [7, 8, 11, 12, 13]

/-- The text of the parts from a position on, inside the tags that are open, the last opened first.
A tag that is not closed covers the text up to its end. -/
def layOut : (position : Nat) → (opened : List OpenTag) → List Piece → Except MarkupFault Marked
  | position, opened, [] => .ok ⟨[], opened.map fun t => t.span position⟩
  | position, opened, .text chars :: rest => do
    let shown := chars.filter fun c => !isControl c
    let m ← layOut (position + shown.length) opened rest
    return { m with text := shown ++ m.text }
  | position, opened, .opening name argument :: rest => do
    let name ← orComponent (styleName name)
    layOut position (⟨name, argument, position⟩ :: opened) rest
  | position, opened, .closing name :: rest => do
    -- a closing tag without a name closes the tag that was opened last
    let name ← if name = [] then pure "" else orComponent (styleName name)
    match OpenTag.take? name opened with
    | none => throw (.unopened name)
    | some (t, opened) => do
      let spans ← t.close position
      let m ← layOut position opened rest
      return { m with spans := spans ++ m.spans }

def readMarkup (s : String) : Except MarkupFault Marked := layOut 0 [] (piecesAfter 0 s.toList)

namespace Marked

/-- The style of a part is needed to show a text: the part covers a character in a line or, where
the text is one line without tabs, a position in it. -/
def needs (m : Marked) (s : Span) : Bool :=
  ((m.text.take s.stop).drop s.start).any (· ≠ '\n') ||
    (s.start = s.stop && m.text.all fun c => c ≠ '\n' && c ≠ '\t')

/-- The text is shown if the styles that are needed can be told. -/
def shown (m : Marked) : Except MarkupFault String := do
  (m.spans.filter m.needs).forM fun s => (orComponent (Style.ofText s.style)).map fun _ => ()
  return String.ofList m.text

end Marked

def render (s : String) : Except MarkupFault String := do (← readMarkup s).shown

/-! ### Texts without brackets -/

theorem tagAt?_eq_none_of_notMem {s : List Char} (h : '[' ∉ s) : tagAt? s = none := by
  unfold tagAt?
  split
  · simp at h
  · rfl

theorem piecesAfter_of_notMem {s : List Char} (h : '[' ∉ s) :
    piecesAfter 0 s = s.map fun c => .text [c] := by
  induction s with
  | nil => rfl
  | cons c cs ih =>
    have hcs : '[' ∉ cs := fun hm => h (List.mem_cons_of_mem _ hm)
    have htag : tagAt? ((c :: cs).drop (backslashes (c :: cs))) = none :=
      tagAt?_eq_none_of_notMem fun hm => h (List.mem_of_mem_drop hm)
    have hhead : cs.head? ≠ some '[' := fun hm => hcs (List.mem_of_head? hm)
    simp [piecesAfter, htag, hhead, ih hcs]

theorem layOut_text (position : Nat) (s : List Char) :
    layOut position [] (s.map fun c => .text [c]) = .ok ⟨s.filter fun c => !isControl c, []⟩ := by
  induction s generalizing position with
  | nil => rfl
  | cons c cs ih =>
    simp only [List.map_cons, layOut, ih]
    by_cases hc : isControl c <;> simp [hc, bind, Except.bind, pure, Except.pure]

theorem render_of_notMem {s : String} (h : '[' ∉ s.toList) :
    render s = .ok (String.ofList (s.toList.filter fun c => !isControl c)) := by
  simp only [render, readMarkup, piecesAfter_of_notMem h, layOut_text]
  rfl

end VendorTree.Console
