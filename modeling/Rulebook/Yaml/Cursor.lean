/-!
# Positions in a YAML text

A YAML text is read from left to right, and its meaning depends on lines and columns, so what is
still to be read carries both: a **cursor**. The classes of characters that the syntax speaks of
are defined here too. A line ends at a line feed, a carriage return, the two together, or one of
the three further breaks of Unicode.
-/

namespace Rulebook.Yaml

/-- Space and tab. -/
def isSpaceOrTab (c : Char) : Bool := c == ' ' || c == '\t'

/-- The characters that end a line. -/
def isBreak (c : Char) : Bool :=
  c == '\n' || c == '\r' || c == '\u0085' || c == '\u2028' || c == '\u2029'

/-- What separates tokens: spaces, tabs and the ends of lines. -/
def isGap (c : Char) : Bool := isSpaceOrTab c || isBreak c

/-- The characters of names: letters, digits, the underscore and the hyphen. -/
def isNameChar (c : Char) : Bool := c.isAlphanum || c == '_' || c == '-'

/-- The characters a YAML text may hold. -/
def isAllowed (c : Char) : Bool :=
  let code := c.toNat
  code == 0x9 || code == 0xA || code == 0xD || (0x20 ≤ code && code ≤ 0x7E) || code == 0x85 ||
    (0xA0 ≤ code && code ≤ 0xD7FF) || (0xE000 ≤ code && code ≤ 0xFFFD) || 0x10000 ≤ code

/-- **What is left of a text**, and where it starts. -/
structure Cursor where
  /-- The characters still to be read. -/
  rest : List Char
  /-- How many characters were read. -/
  index : Nat := 0
  /-- How many lines were ended. -/
  line : Nat := 0
  /-- How many characters of the current line were read. -/
  column : Nat := 0

namespace Cursor

/-- The next character. -/
def peek (cursor : Cursor) : Option Char := cursor.rest.head?

/-- The character at a distance. -/
def peekAt (cursor : Cursor) (n : Nat) : Option Char := cursor.rest[n]?

/-- Whether the character at a distance satisfies a condition. -/
def satisfiesAt (cursor : Cursor) (n : Nat) (p : Char → Bool) : Bool := (cursor.peekAt n).any p

/-- Whether the next character is the given one. -/
def at? (cursor : Cursor) (c : Char) : Bool := cursor.peek == some c

/-- Whether nothing is left. -/
def atEnd (cursor : Cursor) : Bool := cursor.rest.isEmpty

/-- Whether a gap or the end of the text stands at a distance. -/
def gapAt (cursor : Cursor) (n : Nat) : Bool := (cursor.peekAt n).all isGap

/-- Moves over characters of one line. -/
def advance (cursor : Cursor) (n : Nat) : Cursor :=
  { cursor with
    rest := cursor.rest.drop n, index := cursor.index + n, column := cursor.column + n }

/-- Moves over the end of a line, if the cursor stands at one. -/
def advanceLine (cursor : Cursor) : Cursor :=
  match cursor.rest with
  | '\r' :: '\n' :: rest => ⟨rest, cursor.index + 2, cursor.line + 1, 0⟩
  | c :: rest => if isBreak c then ⟨rest, cursor.index + 1, cursor.line + 1, 0⟩ else cursor
  | [] => cursor

/-- What the end of a line counts as in a scalar: a line feed, except that the line and paragraph
separators of Unicode stay themselves. -/
def breakText (cursor : Cursor) : List Char :=
  match cursor.peek with
  | some c => if c == '\u2028' || c == '\u2029' then [c] else if isBreak c then ['\n'] else []
  | none => []

/-- The longest stretch of characters of a class, and what follows it. The class has no ends of
lines. -/
def span (cursor : Cursor) (p : Char → Bool) : List Char × Cursor :=
  let taken := cursor.rest.takeWhile p
  (taken, cursor.advance taken.length)

/-- Moves over the longest stretch of characters of a class. -/
def skipWhile (cursor : Cursor) (p : Char → Bool) : Cursor := (cursor.span p).2

/-- Moves to the end of the line. -/
def skipToBreak (cursor : Cursor) : Cursor := cursor.skipWhile (!isBreak ·)

/-- Moves over a comment, if one starts here. -/
def skipComment (cursor : Cursor) : Cursor :=
  if cursor.at? '#' then cursor.skipToBreak else cursor

/-- Whether a line starts here with the three given characters followed by a gap. -/
def atMarker (cursor : Cursor) (c : Char) : Bool :=
  cursor.column == 0 && cursor.rest.take 3 == [c, c, c] && cursor.gapAt 3

/-- Whether a line starts here that begins or ends a document. -/
def atDocumentMarker (cursor : Cursor) : Bool := cursor.atMarker '-' || cursor.atMarker '.'

/-! ## Moving leaves less -/

/-- How many characters are left. -/
abbrev left (cursor : Cursor) : Nat := cursor.rest.length

theorem left_advance (cursor : Cursor) (n : Nat) : (cursor.advance n).left = cursor.left - n := by
  simp [left, advance]

theorem left_advance_le (cursor : Cursor) (n : Nat) : (cursor.advance n).left ≤ cursor.left := by
  rw [left_advance]
  omega

theorem left_skipWhile_le (cursor : Cursor) (p : Char → Bool) :
    (cursor.skipWhile p).left ≤ cursor.left :=
  left_advance_le ..

theorem left_skipToBreak_le (cursor : Cursor) : cursor.skipToBreak.left ≤ cursor.left :=
  left_skipWhile_le ..

theorem left_skipComment_le (cursor : Cursor) : cursor.skipComment.left ≤ cursor.left := by
  unfold skipComment
  split
  · exact left_skipToBreak_le cursor
  · exact Nat.le_refl _

theorem left_pos {cursor : Cursor} {c : Char} (h : cursor.peek = some c) : 0 < cursor.left := by
  unfold peek at h
  unfold left
  cases hr : cursor.rest with
  | nil => simp [hr] at h
  | cons _ _ => simp

theorem left_advanceLine_le (cursor : Cursor) : cursor.advanceLine.left ≤ cursor.left := by
  unfold advanceLine left
  split
  · next h => simp only [h, List.length_cons]; omega
  · next c rest _ h =>
    split
    · simp [h]
    · exact Nat.le_refl _
  · exact Nat.le_refl _

/-- The end of a line is passed over. -/
theorem left_advanceLine_lt {cursor : Cursor} (h : cursor.satisfiesAt 0 isBreak) :
    cursor.advanceLine.left < cursor.left := by
  unfold advanceLine left
  unfold satisfiesAt peekAt at h
  split
  · next hr => simp only [hr, List.length_cons]; omega
  · next c rest _ hr =>
    have hc : isBreak c = true := by simpa [hr] using h
    simp [hr, hc]
  · next hr => simp [hr] at h

end Cursor

end Rulebook.Yaml
