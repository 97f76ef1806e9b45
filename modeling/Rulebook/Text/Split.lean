/-!
# Cutting texts at a character

A list of characters is cut into the pieces between the occurrences of one character, `split`, or
into what precedes its first occurrence and what follows it, `cut`. There is always one piece more
than there are occurrences.
-/

namespace Rulebook.Text

/-- **The pieces between the occurrences of a character.** -/
def split (mark : Char) : List Char → List (List Char)
  | [] => [[]]
  | c :: rest =>
    match split mark rest with
    | [] => [[c]]
    | piece :: pieces => if c == mark then [] :: piece :: pieces else (c :: piece) :: pieces

/-- There is always a piece. -/
theorem split_ne_nil (mark : Char) (chars : List Char) : split mark chars ≠ [] := by
  cases chars with
  | nil => simp [split]
  | cons c rest =>
    rw [split]
    split
    · simp
    · split <;> simp

/-- **A text is cut where its parts are joined.** -/
theorem split_append (mark : Char) (chars more : List Char) :
    split mark (chars ++ mark :: more) = split mark chars ++ split mark more := by
  induction chars with
  | nil =>
    cases hsplit : split mark more with
    | nil => exact absurd hsplit (split_ne_nil mark more)
    | cons piece pieces => simp [split, hsplit]
  | cons c chars ih =>
    rw [List.cons_append, split, ih, split]
    cases hsplit : split mark chars with
    | nil => exact absurd hsplit (split_ne_nil mark chars)
    | cons piece pieces =>
      dsimp only [List.cons_append]
      split <;> rfl

/-- **What precedes the first occurrence of a character, and what follows it**; nothing follows
when there is none. -/
def cut (mark : Char) (chars : List Char) : List Char × List Char :=
  (chars.takeWhile (· != mark), (chars.dropWhile (· != mark)).drop 1)

end Rulebook.Text
