import VendorTree.Text.CaseTable

/-!
# Small letters

The lower-case form of a text. Every capital becomes its small letter; the dotted capital I becomes
an `i` and a combining dot, so a text may grow; a capital sigma at the end of a word becomes a final
sigma, so the form of one character can depend on its neighbours.
-/

namespace VendorTree.Text

def inRanges (ranges : List (Nat × Nat)) (c : Char) : Bool :=
  ranges.any fun r => r.1 ≤ c.toNat && c.toNat ≤ r.2

/-- A letter that has case. -/
def isCased (c : Char) : Bool := inRanges casedRanges c

/-- A mark that does not separate a letter from its neighbour. -/
def isCaseIgnorable (c : Char) : Bool := inRanges caseIgnorableRanges c

/-- A character is one of the capitals of a run. -/
def CaseRun.holds (r : CaseRun) (c : Char) : Bool :=
  r.first ≤ c.toNat && c.toNat ≤ r.last && (c.toNat - r.first) % r.step == 0

/-- The small letter of a capital; any other character stays. -/
def smallLetter (c : Char) : Char :=
  if c.toNat < 0x80 then c.toLower
  else match capitalRuns.find? (·.holds c) with
    | some r => Char.ofNat (c.toNat + r.shift).toNat
    | none => c

/-- The first character that is no ignorable mark is a letter with case. -/
def meetsCased : List Char → Bool
  | [] => false
  | c :: cs => if isCaseIgnorable c then meetsCased cs else isCased c

/-- The lower-case form of `c` between `before` (nearest first) and `after`. A sigma is final when a
cased letter precedes it and none follows. -/
def smallBetween (before : List Char) (c : Char) (after : List Char) : List Char :=
  if c = 'Σ' then [if meetsCased before && !meetsCased after then 'ς' else 'σ']
  else if c = 'İ' then ['i', '\u0307']
  else [smallLetter c]

/-- The lower-case form of a list of characters that follows `before` (nearest first). -/
def lowerAfter (before : List Char) : List Char → List Char
  | [] => []
  | c :: cs => smallBetween before c cs ++ lowerAfter (c :: before) cs

def lowerChars (s : List Char) : List Char := lowerAfter [] s

def lower (s : String) : String := String.ofList (lowerChars s.toList)

end VendorTree.Text
