import VendorTree.Proofs.Lowering

/-!
# The usual patterns and letters outside ASCII

The usual patterns consist of ASCII characters, and lowering turns hardly anything else into one:
the Kelvin sign becomes a `k`, which no pattern has, and the dotted capital I an `i` with a mark
after it, which no pattern ends in. So for these patterns lowering is the same as lowering the
letters `A` to `Z` alone.
-/

namespace VendorTree

variable {c : Char} {p s t : List Char}

/-! ### ASCII letters -/

theorem toNat_toLower (c : Char) :
    c.toLower.toNat = if 65 ≤ c.toNat ∧ c.toNat ≤ 90 then c.toNat + 32 else c.toNat := by
  have hcapital : (c.val ≥ 'A'.val ∧ c.val ≤ 'Z'.val) ↔ 65 ≤ c.toNat ∧ c.toNat ≤ 90 := by
    rw [ge_iff_le, UInt32.le_iff_toNat_le, UInt32.le_iff_toNat_le]
    rfl
  unfold Char.toLower
  split
  · rename_i h
    rw [if_pos (hcapital.1 h)]
    have hle := (hcapital.1 h).2
    change (c.val + 32).toNat = c.toNat + 32
    have hval : c.val.toNat = c.toNat := rfl
    rw [UInt32.toNat_add, hval]
    exact Nat.mod_eq_of_lt (by rw [show (32 : UInt32).toNat = 32 from rfl]; omega)
  · rename_i h
    rw [if_neg fun hc => h (hcapital.2 hc)]

theorem toLower_eq_iff {d : Char} (hd : d.toNat < 65) : c.toLower = d ↔ c = d := by
  rw [← Char.toNat_inj, ← Char.toNat_inj, toNat_toLower]
  split <;> omega

theorem toLower_of_nonAscii (h : 0x80 ≤ c.toNat) : c.toLower = c := by
  rw [← Char.toNat_inj, toNat_toLower, if_neg (by omega)]

theorem toLower_toLower (c : Char) : c.toLower.toLower = c.toLower := by
  rw [← Char.toNat_inj, toNat_toLower c.toLower, if_neg]
  rw [toNat_toLower]
  split <;> omega

/-! ### Letters outside ASCII -/

theorem toNat_ofNat {n : Nat} (h : n.isValidChar) : (Char.ofNat n).toNat = n := by
  rw [Char.ofNat, dif_pos h]
  rfl

/-- Of the capitals outside ASCII the Kelvin sign alone has a small letter in ASCII. -/
theorem capitalRuns_shift : ∀ r ∈ Text.capitalRuns,
    r.first = 0x212A ∧ r.last = 0x212A ∧ r.shift = -8383 ∨
      0x80 ≤ r.first + r.shift ∧ (r.last + r.shift < 0xD800 ∨
        0xE000 ≤ r.first + r.shift ∧ r.last + r.shift < 0x110000) := by
  decide +kernel

theorem smallLetter_of_nonAscii (h : 0x80 ≤ c.toNat) :
    0x80 ≤ (Text.smallLetter c).toNat ∨ Text.smallLetter c = 'k' := by
  rw [Text.smallLetter, if_neg (by omega)]
  cases hfind : Text.capitalRuns.find? (·.holds c) with
  | none => exact .inl h
  | some r =>
    have hholds := List.find?_some hfind
    simp only [Text.CaseRun.holds, Bool.and_eq_true, decide_eq_true_eq] at hholds
    obtain ⟨⟨hfirst, hlast⟩, -⟩ := hholds
    rcases capitalRuns_shift r (List.mem_of_find?_eq_some hfind) with ⟨hk, hk', hshift⟩ | hvalid
    · have hn : (c.toNat + r.shift).toNat = 107 := by omega
      right
      simp only [hn]
    · have hsmall : (c.toNat + r.shift).toNat.isValidChar := by omega
      left
      simp only [toNat_ofNat hsmall]
      omega

/-! ### Two ways to lower a name -/

/-- An ASCII character other than `k`. -/
def IsPlain (c : Char) : Prop := c.toNat < 0x80 ∧ c ≠ 'k'

instance (c : Char) : Decidable (IsPlain c) :=
  inferInstanceAs (Decidable (c.toNat < 0x80 ∧ c ≠ 'k'))

/-- A pattern of plain characters that does not end in an `i`. -/
def IsPlainPattern (p : List Char) : Prop := (∀ c ∈ p, IsPlain c) ∧ p.getLast? ≠ some 'i'

instance (p : List Char) : Decidable (IsPlainPattern p) :=
  @instDecidableAnd _ _ (List.decidableBAll _ _) _

/-- A name with the letters `A` to `Z` lowered, and the same name with all capitals lowered. -/
inductive LoweredAlike : List Char → List Char → Prop
  | nil : LoweredAlike [] []
  | same (c : Char) {s t : List Char} : LoweredAlike s t → LoweredAlike (c :: s) (c :: t)
  | other {c d : Char} {s t : List Char} : ¬ IsPlain c → ¬ IsPlain d → LoweredAlike s t →
    LoweredAlike (c :: s) (d :: t)
  | dotted {s t : List Char} : LoweredAlike s t → LoweredAlike ('İ' :: s) ('i' :: '\u0307' :: t)

theorem loweredAlike_lowerAfter (before s : List Char) :
    LoweredAlike (s.map Char.toLower) (Text.lowerAfter before s) := by
  induction s generalizing before with
  | nil => exact .nil
  | cons c cs ih =>
    rw [List.map_cons, Text.lowerAfter, Text.smallBetween]
    by_cases hsigma : c = 'Σ'
    · subst hsigma
      rw [if_pos rfl]
      exact .other (by decide) (by split <;> decide) (ih _)
    by_cases hdotted : c = 'İ'
    · subst hdotted
      rw [if_neg hsigma, if_pos rfl]
      exact .dotted (ih _)
    rw [if_neg hsigma, if_neg hdotted]
    by_cases hascii : c.toNat < 0x80
    · rw [Text.smallLetter, if_pos hascii]
      exact .same _ (ih _)
    · have hnonAscii : 0x80 ≤ c.toNat := by omega
      rw [toLower_of_nonAscii hnonAscii]
      refine .other (fun h => hascii h.1) (fun h => ?_) (ih _)
      rcases smallLetter_of_nonAscii hnonAscii with hsmall | hk
      · exact absurd h.1 (by omega)
      · exact h.2 hk

namespace IsPlainPattern

theorem tail (h : IsPlainPattern (c :: p)) : IsPlainPattern p := by
  refine ⟨fun d hd => h.1 d (List.mem_cons_of_mem c hd), fun hlast => h.2 ?_⟩
  rw [List.getLast?_cons, hlast]
  rfl

theorem not_isPrefix (h : IsPlainPattern (c :: p)) {d : Char} (hd : ¬ IsPlain d) :
    ¬ c :: p <+: d :: s := by
  intro hprefix
  obtain ⟨rfl, -⟩ := List.cons_prefix_cons.1 hprefix
  exact hd (h.1 c List.mem_cons_self)

theorem isPrefix_iff (hp : IsPlainPattern p) (h : LoweredAlike s t) : p <+: s ↔ p <+: t := by
  induction h generalizing p with
  | nil => rfl
  | same c hrest ih =>
    cases p with
    | nil => simp
    | cons d rest => rw [List.cons_prefix_cons, List.cons_prefix_cons, ih hp.tail]
  | other hc hd hrest ih =>
    cases p with
    | nil => simp
    | cons e rest => exact iff_of_false (hp.not_isPrefix hc) (hp.not_isPrefix hd)
  | dotted hrest ih =>
    cases p with
    | nil => simp
    | cons e rest =>
      refine iff_of_false (hp.not_isPrefix (by decide)) fun hprefix => ?_
      -- the pattern would end in the `i`, or go on with the mark
      obtain ⟨rfl, hgoesOn⟩ := List.cons_prefix_cons.1 hprefix
      cases rest with
      | nil => exact hp.2 rfl
      | cons f rest => exact hp.tail.not_isPrefix (by decide) hgoesOn

theorem isInfix_iff (hp : IsPlainPattern p) (h : LoweredAlike s t) : p <:+: s ↔ p <:+: t := by
  by_cases hnil : p = []
  · simp [hnil]
  obtain ⟨d, rest, rfl⟩ := List.exists_cons_of_ne_nil hnil
  induction h with
  | nil => rfl
  | same c hrest ih =>
    rw [List.infix_cons_iff, List.infix_cons_iff, hp.isPrefix_iff (.same c hrest), ih]
  | other hc hd hrest ih =>
    rw [List.infix_cons_iff, List.infix_cons_iff, hp.isPrefix_iff (.other hc hd hrest), ih]
  | dotted hrest ih =>
    have hmark : ∀ {t : List Char}, ¬ d :: rest <+: '\u0307' :: t :=
      hp.not_isPrefix (by decide)
    rw [List.infix_cons_iff, List.infix_cons_iff, List.infix_cons_iff,
      hp.isPrefix_iff (.dotted hrest), ih]
    simp only [hmark, false_or]

end IsPlainPattern

theorem isPlainPattern_licenceStarts :
    ∀ s ∈ PreservationRule.licenceStarts, IsPlainPattern s.toList := by decide

theorem isPlainPattern_legalParts :
    ∀ s ∈ PreservationRule.legalParts, IsPlainPattern s.toList := by decide

theorem lowerChars_standard :
    (∀ s ∈ PreservationRule.licenceStarts, Text.lowerChars s.toList = s.toList) ∧
      ∀ s ∈ PreservationRule.legalParts, Text.lowerChars s.toList = s.toList := by decide

/-! ### Base names -/

theorem pieces_map {separator : Char} {f : Char → Char} (hf : ∀ c, f c = separator ↔ c = separator)
    (s : List Char) :
    Text.pieces separator (s.map f) = (Text.pieces separator s).map (·.map f) := by
  induction s with
  | nil => rfl
  | cons c cs ih =>
    rw [List.map_cons, Text.pieces, Text.pieces, ih]
    by_cases hc : c = separator
    · rw [if_pos ((hf c).2 hc), if_pos hc]
      rfl
    · rw [if_neg fun h => hc ((hf c).1 h), if_neg hc]
      cases Text.pieces separator cs <;> rfl

theorem pathNames_toLower (file : String) :
    pathNames (file.map Char.toLower) = (pathNames file).map (String.map Char.toLower) := by
  have hdot : ∀ n : String, n.map Char.toLower = "." ↔ n = "." := by
    intro n
    rw [← String.toList_inj, ← String.toList_inj, String.toList_map]
    change _ = ['.'] ↔ _ = ['.']
    rw [List.map_eq_singleton_iff]
    constructor
    · rintro ⟨c, hn, hc⟩
      rw [hn, (toLower_eq_iff (by decide)).1 hc]
    · intro hn
      exact ⟨'.', hn, by decide⟩
  have hempty : ∀ n : String, n.map Char.toLower = "" ↔ n = "" := by
    intro n
    rw [← String.toList_inj, ← String.toList_inj, String.toList_map]
    exact List.map_eq_nil_iff
  have hpieces : ∀ p : List Char,
      String.ofList (p.map Char.toLower) = (String.ofList p).map Char.toLower := by
    intro p
    rw [← String.toList_inj, String.toList_map, String.toList_ofList, String.toList_ofList]
  rw [pathNames, pathNames, String.toList_map, pieces_map fun c => toLower_eq_iff (by decide),
    List.map_map, List.filter_map, List.filter_map, List.map_map]
  have hnamed : ∀ n : String, decide (n.map Char.toLower ≠ "" ∧ n.map Char.toLower ≠ ".") =
      decide (n ≠ "" ∧ n ≠ ".") :=
    fun n => decide_eq_decide.2 (and_congr (not_congr (hempty n)) (not_congr (hdot n)))
  simp only [Function.comp_def, hpieces, hnamed]

theorem name_toLower (file : String) :
    (Path.ofString (file.map Char.toLower)).name = (Path.ofString file).name.map Char.toLower := by
  change (pathNames (file.map Char.toLower)).getLast?.getD "" =
    ((pathNames file).getLast?.getD "").map Char.toLower
  rw [pathNames_toLower, List.getLast?_map]
  cases (pathNames file).getLast? with
  | none => rw [← String.toList_inj, Option.getD_none, String.toList_map]; rfl
  | some n => rfl

/-! ### The usual rule -/

namespace PreservationRule

theorem licenceStart_isPrefix_iff {s : String} (hs : s ∈ licenceStarts) (name : List Char) :
    s.toList <+: Text.lowerChars name ↔ s.toList <+: name.map Char.toLower :=
  ((isPlainPattern_licenceStarts s hs).isPrefix_iff (loweredAlike_lowerAfter [] name)).symm

theorem legalPart_isInfix_iff {s : String} (hs : s ∈ legalParts) (name : List Char) :
    s.toList <:+: Text.lowerChars name ↔ s.toList <:+: name.map Char.toLower :=
  ((isPlainPattern_legalParts s hs).isInfix_iff (loweredAlike_lowerAfter [] name)).symm

theorem standard_keeps_iff {file : String} : standard.keeps file = true ↔
    (∃ s ∈ licenceStarts, s.toList <+: (Path.ofString file).name.toList.map Char.toLower) ∨
      ∃ s ∈ legalParts, s.toList <:+: (Path.ofString file).name.toList.map Char.toLower := by
  rw [standard, keeps_ofPatterns_iff]
  refine or_congr (exists_congr fun s => and_congr_right fun hs => ?_)
    (exists_congr fun s => and_congr_right fun hs => ?_)
  · rw [lowerChars_standard.1 s hs, licenceStart_isPrefix_iff hs]
  · rw [lowerChars_standard.2 s hs, legalPart_isInfix_iff hs]

theorem standard_keeps_toLower (file : String) :
    standard.keeps (file.map Char.toLower) = standard.keeps file := by
  have hsmall : ∀ s : List Char, (s.map Char.toLower).map Char.toLower = s.map Char.toLower := by
    intro s
    rw [List.map_map]
    exact List.map_congr_left fun c _ => toLower_toLower c
  rw [Bool.eq_iff_iff, standard_keeps_iff, standard_keeps_iff, name_toLower, String.toList_map,
    hsmall]

end PreservationRule

/-- The usual rule keeps a file just in case its base name, with the letters `A` to `Z` lowered,
starts like a licence or holds a word of a legal declaration. For each pattern this is the same as
with all capitals lowered, and two paths that differ in the case of ASCII letters are kept alike. -/
theorem standard_keeps_exact (file : String) :
    let name := (Path.ofString file).name.toList
    let small := name.map Char.toLower
    (PreservationRule.standard.keeps file = true ↔
        (∃ s ∈ PreservationRule.licenceStarts, s.toList <+: small) ∨
          ∃ s ∈ PreservationRule.legalParts, s.toList <:+: small) ∧
      (∀ s ∈ PreservationRule.licenceStarts,
        s.toList <+: Text.lowerChars name ↔ s.toList <+: small) ∧
      (∀ s ∈ PreservationRule.legalParts,
        s.toList <:+: Text.lowerChars name ↔ s.toList <:+: small) ∧
      ∀ other : String, other.toList.map Char.toLower = file.toList.map Char.toLower →
        PreservationRule.standard.keeps other = PreservationRule.standard.keeps file := by
  intro name small
  refine ⟨PreservationRule.standard_keeps_iff, fun s hs => ?_, fun s hs => ?_, fun other h => ?_⟩
  · exact PreservationRule.licenceStart_isPrefix_iff hs name
  · exact PreservationRule.legalPart_isInfix_iff hs name
  · have hsame : other.map Char.toLower = file.map Char.toLower := by
      rw [← String.toList_inj, String.toList_map, String.toList_map, h]
    rw [← PreservationRule.standard_keeps_toLower other, hsame,
      PreservationRule.standard_keeps_toLower]

/-- A dotted capital I is no `I`, a Kelvin sign is no `K`, and sigmas beside a match do not
matter. -/
theorem standard_keeps_exact_samples :
    PreservationRule.standard.keeps "V/LİCENSE" = false ∧
      PreservationRule.standard.keeps "v/\u212Aά-legal.Σ" =
        PreservationRule.standard.keeps "V/\u212Aά-LEGAL.Σ" ∧
      PreservationRule.standard.keeps "V/\u212Aά-LEGAL.Σ" = true := by
  obtain ⟨hdotted, -⟩ := standard_keeps_exact "V/LİCENSE"
  obtain ⟨hkept, -, -, hcase⟩ := standard_keeps_exact "V/\u212Aά-LEGAL.Σ"
  refine ⟨?_, hcase _ (by decide +kernel), hkept.2 (.inr ⟨"legal", by decide +kernel⟩)⟩
  rw [Bool.eq_false_iff, ne_eq, hdotted]
  decide +kernel

end VendorTree
