/-!
# Pieces of a text

What stands between the separators of a text. There is always one piece more than there are
separators, and pieces may be empty.
-/

namespace StagedTransfer.Text

/-- The pieces of a text, in order. -/
def pieces (separator : Char) : List Char → List (List Char)
  | []      => [[]]
  | c :: cs =>
    if c = separator then [] :: pieces separator cs
    else match pieces separator cs with
      | []      => [[c]]
      | d :: ds => (c :: d) :: ds

theorem pieces_ne_nil (separator : Char) (cs : List Char) : pieces separator cs ≠ [] := by
  cases cs with
  | nil => simp [pieces]
  | cons c cs =>
    simp only [pieces]
    split
    · simp
    · split <;> simp

/-- Putting the separators back between the pieces gives the text. -/
theorem intercalate_pieces (separator : Char) (cs : List Char) :
    [separator].intercalate (pieces separator cs) = cs := by
  induction cs with
  | nil => rfl
  | cons c cs ih =>
    simp only [pieces]
    split
    · rename_i h
      obtain ⟨d, ds, hd⟩ := List.exists_cons_of_ne_nil (pieces_ne_nil separator cs)
      rw [hd] at ih ⊢
      rw [List.intercalate_cons_cons, ih, h]
      rfl
    · split
      · rename_i h
        exact absurd h (pieces_ne_nil separator cs)
      · rename_i d ds h
        rw [h] at ih
        cases ds with
        | nil => simpa [List.intercalate] using ih
        | cons e ds => rw [List.intercalate_cons_cons] at ih ⊢; simp [← ih]

/-- No piece has a separator in it. -/
theorem not_mem_of_mem_pieces {separator : Char} {cs piece : List Char}
    (h : piece ∈ pieces separator cs) : separator ∉ piece := by
  induction cs generalizing piece with
  | nil =>
    simp only [pieces, List.mem_singleton] at h
    simp [h]
  | cons c cs ih =>
    simp only [pieces] at h
    split at h
    · rcases List.mem_cons.1 h with rfl | h
      · simp
      · exact ih h
    · rename_i hc
      split at h
      · rename_i hn
        exact absurd hn (pieces_ne_nil separator cs)
      · rename_i d ds hd
        rcases List.mem_cons.1 h with rfl | h
        · have := ih (hd ▸ List.mem_cons_self)
          simp [this, Ne.symm hc]
        · exact ih (hd ▸ List.mem_cons_of_mem d h)

end StagedTransfer.Text
