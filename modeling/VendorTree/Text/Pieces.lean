/-!
# Cutting a text

The pieces of a text between the occurrences of a character, the empty ones included. There is one
piece more than there are occurrences, and no piece holds one.
-/

namespace VendorTree.Text

def pieces (separator : Char) : List Char → List (List Char)
  | [] => [[]]
  | c :: cs =>
    if c = separator then [] :: pieces separator cs
    else match pieces separator cs with
      | [] => [[c]]
      | piece :: rest => (c :: piece) :: rest

theorem separator_notMem_pieces (separator : Char) (s : List Char) :
    ∀ p ∈ pieces separator s, separator ∉ p := by
  induction s with
  | nil => simp [pieces]
  | cons c cs ih =>
    unfold pieces
    split
    · intro p hp
      rcases List.mem_cons.1 hp with rfl | hp
      · simp
      · exact ih p hp
    · rename_i hc
      split
      · simpa using Ne.symm hc
      · rename_i piece rest hs
        intro p hp
        rcases List.mem_cons.1 hp with rfl | hp
        · have := ih piece (by simp [hs])
          simp [Ne.symm hc, this]
        · exact ih p (by simp [hs, hp])

end VendorTree.Text
