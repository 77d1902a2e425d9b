import Mathlib.Algebra.Group.Nat.Defs
import Mathlib.Tactic.SplitIfs
import VendorTree.Toml.Reader
import VendorTree.Toml.Writer

/-!
# Written texts

What is written for a text between double quotes is read as that text, whatever its characters are.
The reader is a machine over characters, so the statements are about one character first, in front
of any rest, and then about a whole text by induction.

No carriage return is ever written, so line ends are written as they are read.
-/

namespace VendorTree

/-! ### Hexadecimal digits -/

namespace Text

theorem mem_hexDigits {width n : Nat} {c : Char} (h : c ∈ hexDigits width n) :
    ∃ d < 16, c = Nat.digitChar d := by
  induction width generalizing n with
  | zero => simp [hexDigits] at h
  | succ width ih =>
    rcases List.mem_append.1 (show c ∈ hexDigits width (n / 16) ++ _ from h) with h | h
    · exact ih h
    · exact ⟨n % 16, Nat.mod_lt _ (by decide), List.mem_singleton.1 h⟩

end Text

namespace Toml

theorem hexValue?_digitChar : ∀ d < 16, hexValue? (Nat.digitChar d) = some d := by decide

/-- The digits of a number add it to the value so far, as long as more digits are to come. -/
theorem readQuoted_hexDigits {width n more : Nat} (value : Nat) (rest : List Char)
    (hwidth : width ≤ more) (hn : n < 16 ^ width) :
    readQuoted (.hex more value) (Text.hexDigits width n ++ rest) =
      readQuoted (.hex (more - width) (16 ^ width * value + n)) rest := by
  induction width generalizing n rest with
  | zero =>
    obtain rfl : n = 0 := by simpa using hn
    simp [Text.hexDigits]
  | succ width ih =>
    have hhigh : n / 16 < 16 ^ width := by rw [Nat.pow_succ] at hn; omega
    have hmore : more - width = (more - (width + 1)) + 1 := by omega
    have hvalue : 16 * (16 ^ width * value + n / 16) + n % 16 = 16 ^ (width + 1) * value + n := by
      have hshift : 16 ^ (width + 1) * value = 16 * (16 ^ width * value) := by
        rw [Nat.pow_succ, Nat.mul_comm (16 ^ width), Nat.mul_assoc]
      omega
    rw [Text.hexDigits, List.append_assoc, ih _ (by omega) hhigh, hmore, List.singleton_append,
      readQuoted, hexValue?_digitChar _ (Nat.mod_lt _ (by decide))]
    simp only [hvalue]

/-- An escape by number stands for the character with that number. -/
theorem readQuoted_numbered {c : Char} (rest : List Char) (hc : c.toNat < 16 ^ 4) :
    readQuoted (.hex 3 0) (Text.hexDigits 4 c.toNat ++ rest) =
      pushChar c (readQuoted .plain rest) := by
  have hhigh : c.toNat / 16 < 16 ^ 3 := by omega
  have hvalue : 16 * (c.toNat / 16) + c.toNat % 16 = c.toNat := by omega
  have hchar : charOfNat? c.toNat = some c := by
    have hvalid : c.toNat.isValidChar := c.valid
    rw [charOfNat?, if_pos hvalid, Char.ofNat_toNat]
  rw [Text.hexDigits, List.append_assoc, readQuoted_hexDigits 0 _ (by decide) hhigh,
    List.singleton_append, readQuoted, hexValue?_digitChar _ (Nat.mod_lt _ (by decide))]
  simp [hvalue, hchar]

/-! ### Characters and texts -/

/-- A control character has a number below that of the first character outside of ASCII. -/
theorem toNat_lt_of_isBarred {c : Char} (h : isBarred c = true) : c.toNat < 128 := by
  simp only [isBarred, isControl, Bool.and_eq_true, Bool.or_eq_true, decide_eq_true_eq] at h
  omega

theorem readQuoted_writeChar (c : Char) (rest : List Char) :
    readQuoted .plain (writeChar c ++ rest) = pushChar c (readQuoted .plain rest) := by
  have short (e : Char) (he : escapedChar? e = some c) (hu : e ≠ 'u') (hU : e ≠ 'U') :
      readQuoted .plain ('\\' :: e :: rest) = pushChar c (readQuoted .plain rest) := by
    simp [readQuoted, he, hu, hU]
  unfold writeChar
  split_ifs with h1 h2 h3 h4 h5 h6 h7
  · exact short '"' (by rw [h1]; rfl) (by decide) (by decide)
  · exact short '\\' (by rw [h2]; rfl) (by decide) (by decide)
  · exact short 'b' (h3 ▸ rfl) (by decide) (by decide)
  · exact short 'n' (h4 ▸ rfl) (by decide) (by decide)
  · exact short 'f' (h5 ▸ rfl) (by decide) (by decide)
  · exact short 'r' (h6 ▸ rfl) (by decide) (by decide)
  · have hsmall := toNat_lt_of_isBarred h7
    simpa [readQuoted] using readQuoted_numbered rest (by omega)
  · simp [readQuoted, h1, h2, h7]

theorem readQuoted_writeChars (s rest : List Char) :
    readQuoted .plain (s.flatMap writeChar ++ '"' :: rest) = some (s, rest) := by
  induction s with
  | nil => simp [readQuoted]
  | cons c s ih =>
    rw [List.flatMap_cons, List.append_assoc, readQuoted_writeChar, ih]
    rfl

theorem head?_writeChar (c : Char) (rest : List Char) :
    (writeChar c ++ rest).head? ≠ some '"' := by
  unfold writeChar
  split_ifs with h1 <;> simp [h1]

/-- A written text is read as that text. Behind it no further quote may stand, since three of them
begin a text of several lines. -/
theorem readScalar_writeText (s rest : List Char) (hrest : rest.head? ≠ some '"') :
    readScalar (writeText s ++ rest) = .ok (.text (String.ofList s), rest) := by
  have hread := readQuoted_writeChars s rest
  have hlines : ∀ more, s.flatMap writeChar ++ '"' :: rest ≠ '"' :: '"' :: more := by
    intro more hmore
    cases s with
    | nil => simp_all
    | cons c s =>
      refine head?_writeChar c (s.flatMap writeChar ++ '"' :: rest) ?_
      rw [← List.append_assoc, ← List.flatMap_cons, hmore]
      rfl
  have hform : writeText s ++ rest = '"' :: (s.flatMap writeChar ++ '"' :: rest) := by
    simp [writeText]
  rw [hform]
  generalize s.flatMap writeChar ++ '"' :: rest = written at hread hlines
  unfold readScalar
  split
  · rename_i h
    exact absurd (List.cons.inj h).2 (hlines _)
  · rename_i h
    obtain rfl := (List.cons.inj h).2
    rw [hread]
    rfl
  · simp_all
  · simp_all
  · simp_all

/-! ### Line ends -/

theorem notMem_writeChar (c : Char) : '\r' ∉ writeChar c := by
  unfold writeChar
  split_ifs with h1 h2 h3 h4 h5 h6 h7
  iterate 6 exact by decide
  · have hdigits : ∀ d < 16, Nat.digitChar d ≠ '\r' := by decide
    intro h
    obtain ⟨d, hd, hdigit⟩ : ∃ d < 16, '\r' = Nat.digitChar d :=
      Text.mem_hexDigits (by simpa using h)
    exact hdigits d hd hdigit.symm
  · exact fun h => h6 (List.mem_singleton.1 h).symm

theorem notMem_writeText (s : List Char) : '\r' ∉ writeText s := by
  simp only [writeText, List.cons_append, List.mem_cons, List.mem_append, List.mem_flatMap,
    List.not_mem_nil, or_false, not_or, not_exists, not_and]
  exact ⟨by decide, fun c _ => notMem_writeChar c, by decide⟩

theorem unifyLineEnds_eq {s : List Char} (h : '\r' ∉ s) : unifyLineEnds s = s := by
  induction s with
  | nil => rfl
  | cons c s ih =>
    obtain ⟨hc, hs⟩ := not_or.1 (mt List.mem_cons.2 h)
    rw [unifyLineEnds, ih hs]
    rintro rest rfl
    exact absurd rfl hc

end Toml

end VendorTree
