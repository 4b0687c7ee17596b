/-! A text cut at every place where a character stands. The pieces hold all of the text but that
character, in order. -/
namespace ChipEight

/-- A text without the separator is one piece, and two separators in a row have an empty piece between
them. -/
def piecesBetween (separator : Char) : List Char → List (List Char)
  | [] => [[]]
  | c :: cs =>
    if c = separator then [] :: piecesBetween separator cs
    else
      match piecesBetween separator cs with
      | [] => [[c]]
      | piece :: pieces => (c :: piece) :: pieces

theorem piecesBetween_ne_nil (separator : Char) (text : List Char) :
    piecesBetween separator text ≠ [] := by
  cases text with
  | nil => simp [piecesBetween]
  | cons c cs =>
    simp only [piecesBetween]
    split
    · simp
    · split <;> simp

theorem not_mem_of_mem_piecesBetween {separator : Char} {text piece : List Char}
    (h : piece ∈ piecesBetween separator text) : separator ∉ piece := by
  induction text generalizing piece with
  | nil => simp_all [piecesBetween]
  | cons c cs ih =>
    simp only [piecesBetween] at h
    split at h
    · rcases List.mem_cons.1 h with rfl | h
      · simp
      · exact ih h
    · next hc =>
      split at h
      · next he => exact absurd he (piecesBetween_ne_nil separator cs)
      · next first pieces he =>
        rcases List.mem_cons.1 h with rfl | h
        · have := ih (he ▸ List.mem_cons_self : first ∈ piecesBetween separator cs)
          simp [this, Ne.symm hc]
        · exact ih (he ▸ List.mem_cons_of_mem first h)

/-- With the separator put back between the pieces the text is as before. -/
theorem intercalate_piecesBetween (separator : Char) (text : List Char) :
    [separator].intercalate (piecesBetween separator text) = text := by
  induction text with
  | nil => rfl
  | cons c cs ih =>
    obtain ⟨first, pieces, he⟩ := List.exists_cons_of_ne_nil (piecesBetween_ne_nil separator cs)
    rw [he] at ih
    simp only [piecesBetween, he]
    split
    · next hc => subst hc; cases pieces <;> simp_all [List.intercalate]
    · cases pieces <;> simp_all [List.intercalate]

end ChipEight
