import Rulebook.Decimal.Numeral
import Rulebook.Yaml.Cursor

/-!
# The longer tokens of YAML

Anchors, tags, directives and the five styles of scalars are read here, each by a function from a
cursor at its first character to what it says and the cursor behind it. Where one of them is not
well-formed the answer is a reason in words.

Two rules recur. Line folding, `Fold`: a stretch of spaces and line ends inside a scalar becomes
the spaces themselves when it stays on a line, a single space when it ends one line, and the
further line ends when it ends several. Indentation: a plain scalar and a block scalar end at the
first line that is indented too little.
-/

namespace Rulebook.Yaml

open Rulebook.Decimal (digitValue? natural?)

/-- Reading a token may fail with a reason. -/
abbrev Lex := Except String

/-- How a scalar is written. -/
inductive ScalarStyle where
  /-- Without quotes. -/
  | plain
  /-- In single quotes. -/
  | singleQuoted
  /-- In double quotes. -/
  | doubleQuoted
  /-- Indented lines that are kept. -/
  | literal
  /-- Indented lines that are folded. -/
  | folded
deriving DecidableEq, Repr

/-! ## Anchors and directives -/

/-- **The name of an anchor or alias**, behind its mark. -/
def scanAnchor (cursor : Cursor) : Lex (String × Cursor) :=
  let (name, cursor) := (cursor.advance 1).span isNameChar
  let closed := cursor.peek.all fun c => isGap c || "?:,]\x7d%@`".toList.contains c
  if name.isEmpty || !closed then
    throw "while scanning an anchor, did not find expected alphabetic or numeric character"
  else pure (String.ofList name, cursor)

/-- Whether a character may stand in a tag. The flow indicators may only in a tag in angle
brackets. -/
def isTagChar (verbatim : Bool) (c : Char) : Bool :=
  isNameChar c || ";/?:@&=+$.!~*'()".toList.contains c ||
    (verbatim && ",[]".toList.contains c)

/-- The byte that a percent sign and two hexadecimal digits stand for. -/
def percentByte? : List Char → Option Nat
  | '%' :: a :: b :: _ => do return (← digitValue? 16 a) * 16 + (← digitValue? 16 b)
  | _ => none

/-- The continuation bytes of a character that is written byte by byte. -/
def scanContinuation : Nat → Nat → Cursor → Lex (Nat × Cursor)
  | 0, code, cursor => pure (code, cursor)
  | n + 1, code, cursor =>
    match percentByte? cursor.rest with
    | some byte =>
      if byte / 64 == 2 then scanContinuation n (code * 64 + byte % 64) (cursor.advance 3)
      else throw "while parsing a tag, found an incorrect trailing UTF-8 octet"
    | none => throw "while parsing a tag, did not find URI escaped octet"

/-- A character of a tag that is written byte by byte. -/
def scanEscapedChar (cursor : Cursor) : Lex (Char × Cursor) := do
  match percentByte? cursor.rest with
  | none => throw "while parsing a tag, did not find URI escaped octet"
  | some byte =>
    let (width, bits) ←
      if byte < 0x80 then pure (0, byte)
      else if byte / 32 == 6 then pure (1, byte % 32)
      else if byte / 16 == 14 then pure (2, byte % 16)
      else if byte / 8 == 30 then pure (3, byte % 8)
      else throw "while parsing a tag, found an incorrect leading UTF-8 octet"
    let (code, cursor) ← scanContinuation width bits (cursor.advance 3)
    pure (if h : code.isValidChar then Char.ofNatAux code h else '\uFFFD', cursor)

/-- The characters of a tag, up to `fuel` of them. -/
def scanTagChars (verbatim : Bool) : Nat → Cursor → Lex (List Char × Cursor)
  | 0, cursor => pure ([], cursor)
  | fuel + 1, cursor => do
    match cursor.peek with
    | none => pure ([], cursor)
    | some c =>
      if c == '%' then
        let (c, cursor) ← scanEscapedChar cursor
        let (rest, cursor) ← scanTagChars verbatim fuel cursor
        pure (c :: rest, cursor)
      else if isTagChar verbatim c then
        let (rest, cursor) ← scanTagChars verbatim fuel (cursor.advance 1)
        pure (c :: rest, cursor)
      else pure ([], cursor)

/-- The rest of a tag behind the characters in `head`, of which the first is a mark and does not
count as text. Head and rest must not both be empty. -/
def scanTagSuffix (verbatim : Bool) (head : List Char) (cursor : Cursor) :
    Lex (List Char × Cursor) := do
  let limit := (cursor.rest.takeWhile (!isGap ·)).length
  let (chars, cursor) ← scanTagChars verbatim limit cursor
  if head.isEmpty && chars.isEmpty then throw "while parsing a tag, did not find expected tag URI"
  else pure (head.drop 1 ++ chars, cursor)

/-- The handle of a tag: an exclamation mark, then a name that a second one ends. In a directive
the second one may be missing only when there is no name. -/
def scanTagHandle (directive : Bool) (cursor : Cursor) : Lex (List Char × Cursor) := do
  if !cursor.at? '!' then throw "while scanning a tag, did not find expected '!'"
  let (name, cursor) := (cursor.advance 1).span isNameChar
  if cursor.at? '!' then pure ('!' :: name ++ ['!'], cursor.advance 1)
  else if directive && !name.isEmpty then
    throw "while parsing a tag directive, did not find expected '!'"
  else pure ('!' :: name, cursor)

/-- **A tag** as its handle and the text after it. A tag in angle brackets has no handle, and the
mark alone is a text without a handle. -/
def scanTag (cursor : Cursor) : Lex ((String × String) × Cursor) := do
  let ((handle, suffix), cursor) ←
    if cursor.peekAt 1 == some '<' then do
      let (suffix, cursor) ← scanTagSuffix true [] (cursor.advance 2)
      if !cursor.at? '>' then throw "while scanning a tag, did not find the expected '>'"
      pure (([], suffix), cursor.advance 1)
    else do
      let (handle, cursor) ← scanTagHandle false cursor
      if 1 < handle.length && handle.getLast? == some '!' then
        let (suffix, cursor) ← scanTagSuffix false [] cursor
        pure ((handle, suffix), cursor)
      else
        let (suffix, cursor) ← scanTagSuffix false handle cursor
        pure (if suffix.isEmpty then ([], ['!']) else (['!'], suffix), cursor)
  pure ((String.ofList handle, String.ofList suffix), cursor)

/-- A number of a version: at most nine digits. -/
def scanVersionNumber (cursor : Cursor) : Lex (Nat × Cursor) :=
  let (digits, cursor) := cursor.span Char.isDigit
  if digits.isEmpty then
    throw "while scanning a %YAML directive, did not find expected version number"
  else if 9 < digits.length then
    throw "while scanning a %YAML directive, found extremely long version number"
  else pure (digits.foldl (fun n c => n * 10 + (c.toNat - '0'.toNat)) 0, cursor)

/-- What a directive says. -/
inductive Directive where
  /-- The version of YAML. -/
  | version (major minor : Nat)
  /-- What a handle of tags stands for. -/
  | tag (handle start : String)
deriving DecidableEq, Repr

/-- What follows the name of a directive. -/
def scanDirectiveBody (name : String) (cursor : Cursor) : Lex (Directive × Cursor) := do
  if name == "YAML" then
    let (major, cursor) ← scanVersionNumber (cursor.skipWhile isSpaceOrTab)
    if !cursor.at? '.' then
      throw "while scanning a %YAML directive, did not find expected digit or '.' character"
    let (minor, cursor) ← scanVersionNumber (cursor.advance 1)
    pure (.version major minor, cursor)
  else if name == "TAG" then
    let (handle, cursor) ← scanTagHandle true (cursor.skipWhile isSpaceOrTab)
    if !cursor.satisfiesAt 0 isSpaceOrTab then
      throw "while scanning a %TAG directive, did not find expected whitespace"
    let (start, cursor) ← scanTagSuffix true [] (cursor.skipWhile isSpaceOrTab)
    if !cursor.gapAt 0 then
      throw "while scanning a %TAG directive, did not find expected whitespace or line break"
    pure (.tag (String.ofList handle) (String.ofList start), cursor)
  else throw "while scanning a directive, found unknown directive name"

/-- Moves over spaces, a comment and the end of the line, which must follow. -/
def scanLineEnd (context : String) (cursor : Cursor) : Lex Cursor :=
  let cursor := (cursor.skipWhile isSpaceOrTab).skipComment
  if cursor.peek.all isBreak then pure cursor.advanceLine
  else throw (context ++ ", did not find expected comment or line break")

/-- **A directive**, with the line it fills. -/
def scanDirective (cursor : Cursor) : Lex (Directive × Cursor) := do
  let (name, cursor) := (cursor.advance 1).span isNameChar
  if name.isEmpty then
    throw "while scanning a directive, could not find expected directive name"
  if !cursor.gapAt 0 then
    throw "while scanning a directive, found unexpected non-alphabetical character"
  let (directive, cursor) ← scanDirectiveBody (String.ofList name) cursor
  let cursor ← scanLineEnd "while scanning a directive" cursor
  pure (directive, cursor)

/-! ## Line folding -/

/-- **A stretch of spaces and line ends** inside a scalar. -/
structure Fold where
  /-- The spaces and tabs before the first end of a line. -/
  spaces : List Char := []
  /-- The first end of a line; a line end that is escaped counts for nothing. -/
  first : List Char := []
  /-- The further ends of lines. -/
  further : List Char := []
  /-- Whether a line has ended. -/
  broken : Bool := false

/-- **What a stretch stands for** inside the scalar. -/
def Fold.text (fold : Fold) : List Char :=
  if !fold.broken then fold.spaces
  else if fold.first == ['\n'] then if fold.further.isEmpty then [' '] else fold.further
  else fold.first ++ fold.further

/-- Reads the rest of a stretch. A tab is refused in the indentation of a line, which ends at
column `indent`. -/
def scanFold (indent : Nat) (fold : Fold) (cursor : Cursor) : Lex (Fold × Cursor) :=
  match h : cursor.peek with
  | none => pure (fold, cursor)
  | some c =>
    have := Cursor.left_pos h
    if isSpaceOrTab c then
      if fold.broken then
        if c == '\t' && cursor.column < indent then
          throw "while scanning a plain scalar, found a tab character that violates indentation"
        else scanFold indent fold (cursor.advance 1)
      else scanFold indent { fold with spaces := fold.spaces ++ [c] } (cursor.advance 1)
    else if hc : cursor.satisfiesAt 0 isBreak then
      have := Cursor.left_advanceLine_lt hc
      let ended := cursor.breakText
      scanFold indent
        (if fold.broken then { fold with further := fold.further ++ ended }
         else { fold with first := ended, broken := true })
        cursor.advanceLine
    else pure (fold, cursor)
termination_by cursor.left
decreasing_by
  · rw [Cursor.left_advance]
    omega
  · rw [Cursor.left_advance]
    omega
  · assumption

/-- A stretch leaves no more than was there. -/
theorem left_scanFold_le {indent : Nat} {fold result : Fold} {cursor next : Cursor}
    (h : scanFold indent fold cursor = .ok (result, next)) : next.left ≤ cursor.left := by
  fun_induction scanFold indent fold cursor with
  | case1 | case6 => cases h; exact Nat.le_refl _
  | case2 => cases h
  | case3 _ _ _ _ _ _ _ _ ih | case4 _ _ _ _ _ _ _ ih =>
    exact Nat.le_trans (ih h) (Cursor.left_advance_le ..)
  | case5 _ _ _ _ _ _ _ _ _ ih => exact Nat.le_trans (ih h) (Cursor.left_advanceLine_le _)

/-- A stretch that is not empty is passed over. -/
theorem left_scanFold_lt {indent : Nat} {fold result : Fold} {cursor next : Cursor}
    (hg : cursor.satisfiesAt 0 isGap) (h : scanFold indent fold cursor = .ok (result, next)) :
    next.left < cursor.left := by
  unfold scanFold at h
  split at h
  · next hp =>
    have hn : cursor.rest[0]? = none := by simpa [Cursor.peek, List.head?_eq_getElem?] using hp
    simp [Cursor.satisfiesAt, Cursor.peekAt, hn] at hg
  · next c hp =>
    have hc : cursor.rest[0]? = some c := by simpa [Cursor.peek, List.head?_eq_getElem?] using hp
    have hl := Cursor.left_pos hp
    have ha : (cursor.advance 1).left < cursor.left := by
      rw [Cursor.left_advance]
      omega
    split at h
    · split at h
      · split at h
        · cases h
        · exact Nat.lt_of_le_of_lt (left_scanFold_le h) ha
      · exact Nat.lt_of_le_of_lt (left_scanFold_le h) ha
    · split at h
      · next hb => exact Nat.lt_of_le_of_lt (left_scanFold_le h) (Cursor.left_advanceLine_lt hb)
      · next hs hb => simp_all [Cursor.satisfiesAt, Cursor.peekAt, isGap]

/-! ## Plain scalars -/

/-- The part of a plain scalar up to the next gap. Between brackets the flow indicators end it,
and a colon must not stand before one. -/
def scanPlainChunk (flow : Bool) : List Char → Lex (List Char)
  | [] => pure []
  | c :: rest =>
    if isGap c then pure []
    else if flow && c == ':' && rest.head?.any (",?[]\x7b\x7d".toList.contains ·) then
      throw "while scanning a plain scalar, found unexpected ':'"
    else if (c == ':' && rest.head?.all isGap) || (flow && ",[]\x7b\x7d".toList.contains c) then
      pure []
    else return c :: (← scanPlainChunk flow rest)

/-- Reads a plain scalar piece by piece; `pending` is the stretch before the piece. The answer says
too whether a line ended behind the last piece. -/
def scanPlainFrom (flow : Bool) (indent : Nat) (pending : Fold) (cursor : Cursor) :
    Lex (List Char × Bool × Cursor) :=
  if cursor.atDocumentMarker || cursor.at? '#' then pure ([], pending.broken, cursor)
  else do
    let chunk ← scanPlainChunk flow cursor.rest
    let text := if chunk.isEmpty then [] else pending.text ++ chunk
    let pending := if chunk.isEmpty then pending else {}
    let last := cursor.advance chunk.length
    if hg : last.satisfiesAt 0 isGap then
      match hs : scanFold indent pending last with
      | .error reason => throw reason
      | .ok (pending, next) =>
        if !flow && next.column < indent then pure (text, pending.broken, next)
        else
          have := Nat.lt_of_lt_of_le (left_scanFold_lt hg hs) (Cursor.left_advance_le ..)
          let (rest, ending) ← scanPlainFrom flow indent pending next
          pure (text ++ rest, ending)
    else pure (text, pending.broken, last)
termination_by cursor.left

/-- **A plain scalar.** The answer says too whether a line ended behind it. -/
def scanPlain (flow : Bool) (indent : Nat) (cursor : Cursor) : Lex (String × Bool × Cursor) := do
  let (text, broken, cursor) ← scanPlainFrom flow indent {} cursor
  pure (String.ofList text, broken, cursor)

/-! ## Quoted scalars -/

/-- What a one-letter escape stands for. -/
def simpleEscape? (c : Char) : Option Char :=
  match c with
  | '0' => some '\x00'
  | 'a' => some '\x07'
  | 'b' => some '\x08'
  | 't' => some '\t'
  | '\t' => some '\t'
  | 'n' => some '\n'
  | 'v' => some '\x0b'
  | 'f' => some '\x0c'
  | 'r' => some '\r'
  | 'e' => some '\x1b'
  | ' ' => some ' '
  | '"' => some '"'
  | '/' => some '/'
  | '\\' => some '\\'
  | 'N' => some '\u0085'
  | '_' => some '\u00a0'
  | 'L' => some '\u2028'
  | 'P' => some '\u2029'
  | _ => none

/-- How many hexadecimal digits follow the letter of an escape. -/
def codeLength? (c : Char) : Option Nat :=
  match c with
  | 'x' => some 2
  | 'u' => some 4
  | 'U' => some 8
  | _ => none

/-- The character of an escape in double quotes, behind the backslash. -/
def scanEscape (cursor : Cursor) : Lex (Char × Cursor) :=
  match cursor.peek with
  | none => throw "while parsing a quoted scalar, found unknown escape character"
  | some letter =>
    match simpleEscape? letter, codeLength? letter with
    | some c, _ => pure (c, cursor.advance 1)
    | none, some length =>
      let digits := (cursor.rest.drop 1).take length
      match if digits.length == length then natural? 16 digits else none with
      | none => throw "while parsing a quoted scalar, did not find expected hexdecimal number"
      | some code =>
        if code.isValidChar then pure (Char.ofNat code, cursor.advance (1 + length))
        else throw "while parsing a quoted scalar, found invalid Unicode character escape code"
    | none, none => throw "while parsing a quoted scalar, found unknown escape character"

theorem left_scanEscape_le {c : Char} {cursor next : Cursor}
    (h : scanEscape cursor = .ok (c, next)) : next.left ≤ cursor.left := by
  unfold scanEscape at h
  split at h
  · cases h
  · split at h
    · cases h
      exact Cursor.left_advance_le ..
    · dsimp only at h
      split at h
      · cases h
      · split at h
        · cases h
          exact Cursor.left_advance_le ..
        · cases h
    · cases h

/-- Puts characters in front of what is read. -/
def withText (text : List Char) (reading : Lex (List Char × Cursor)) :
    Lex (List Char × Cursor) := do
  let (rest, cursor) ← reading
  pure (text ++ rest, cursor)

/-- Reads the inside of a quoted scalar and the quote that ends it. -/
def scanQuotedFrom (single : Bool) (cursor : Cursor) : Lex (List Char × Cursor) :=
  let quote := if single then '\x27' else '"'
  match h : cursor.peek with
  | none => throw "while scanning a quoted scalar, found unexpected end of stream"
  | some c =>
    have hl := Cursor.left_pos h
    if cursor.atDocumentMarker then
      throw "while scanning a quoted scalar, found unexpected document indicator"
    else if hg : cursor.satisfiesAt 0 isGap then
      match hs : scanFold 0 {} cursor with
      | .error reason => throw reason
      | .ok (fold, next) =>
        have := left_scanFold_lt hg hs
        withText fold.text (scanQuotedFrom single next)
    else if single && c == quote && cursor.peekAt 1 == some quote then
      withText [quote] (scanQuotedFrom single (cursor.advance 2))
    else if c == quote then pure ([], cursor.advance 1)
    else if !single && c == '\\' then
      if cursor.satisfiesAt 1 isBreak then
        match hs : scanFold 0 { broken := true } (cursor.advance 1).advanceLine with
        | .error reason => throw reason
        | .ok (fold, next) =>
          have := Nat.le_trans (left_scanFold_le hs) (Cursor.left_advanceLine_le _)
          withText fold.text (scanQuotedFrom single next)
      else
        match hs : scanEscape (cursor.advance 1) with
        | .error reason => throw reason
        | .ok (c, next) =>
          have := left_scanEscape_le hs
          withText [c] (scanQuotedFrom single next)
    else
      let stretch := (cursor.rest.drop 1).takeWhile fun c =>
        !isGap c && c != quote && (single || c != '\\')
      withText (c :: stretch) (scanQuotedFrom single (cursor.advance (1 + stretch.length)))
termination_by cursor.left
decreasing_by
  · assumption
  · rw [Cursor.left_advance]
    omega
  · rw [Cursor.left_advance] at this
    omega
  · rw [Cursor.left_advance] at this
    omega
  · rw [Cursor.left_advance]
    omega

/-- **A scalar in quotes.** -/
def scanQuoted (single : Bool) (cursor : Cursor) : Lex (String × Cursor) := do
  let (text, cursor) ← scanQuotedFrom single (cursor.advance 1)
  pure (String.ofList text, cursor)

/-! ## Block scalars -/

/-- What becomes of the line ends behind a block scalar. -/
inductive Chomping where
  /-- All are dropped. -/
  | strip
  /-- The first is kept. -/
  | clip
  /-- All are kept. -/
  | keep
deriving DecidableEq

/-- The header of a block scalar: the two indicators in either order. -/
def scanBlockHeader (cursor : Cursor) : Lex (Chomping × Option Nat × Cursor) := do
  let chomping? (cursor : Cursor) : Option Chomping :=
    if cursor.at? '+' then some .keep else if cursor.at? '-' then some .strip else none
  let digit? (cursor : Cursor) : Lex (Option Nat) :=
    match cursor.peek with
    | some c =>
      if c == '0' then
        throw "while scanning a block scalar, found an indentation indicator equal to 0"
      else if c.isDigit then pure (some (c.toNat - '0'.toNat)) else pure none
    | none => pure none
  match chomping? cursor with
  | some chomping =>
    let cursor := cursor.advance 1
    match ← digit? cursor with
    | some digit => pure (chomping, some digit, cursor.advance 1)
    | none => pure (chomping, none, cursor)
  | none =>
    match ← digit? cursor with
    | none => pure (.clip, none, cursor)
    | some digit =>
      let cursor := cursor.advance 1
      match chomping? cursor with
      | some chomping => pure (chomping, some digit, cursor.advance 1)
      | none => pure (.clip, some digit, cursor)

/-- How many spaces in front of a line of a block scalar belong to the indentation. While the
indentation is not known, any number does. -/
def indentation (indent : Option Nat) (cursor : Cursor) : Nat :=
  let spaces := (cursor.rest.takeWhile (· == ' ')).length
  match indent with
  | none => spaces
  | some indent => min spaces (indent - cursor.column)

/-- Reads the empty lines before a line of a block scalar. The answer has their ends and the
greatest column that was reached. -/
def scanBlockBreaks (indent : Option Nat) (start : Cursor) : Lex (Nat × List Char × Cursor) :=
  let cursor := start.advance (indentation indent start)
  if indent.all (cursor.column < ·) && cursor.at? '\t' then
    throw "while scanning a block scalar, found a tab character in the indentation"
  else if hb : cursor.satisfiesAt 0 isBreak then do
    have := Nat.lt_of_lt_of_le (Cursor.left_advanceLine_lt hb) (Cursor.left_advance_le start _)
    let (widest, breaks, next) ← scanBlockBreaks indent cursor.advanceLine
    pure (max cursor.column widest, cursor.breakText ++ breaks, next)
  else pure (cursor.column, [], cursor)
termination_by start.left

theorem left_scanBlockBreaks_le {indent : Option Nat} {start next : Cursor} {widest : Nat}
    {breaks : List Char} (h : scanBlockBreaks indent start = .ok (widest, breaks, next)) :
    next.left ≤ start.left := by
  fun_induction scanBlockBreaks indent start generalizing widest breaks next with
  | case1 => cases h
  | case2 start cursor _ _ hlt =>
    rename_i ih
    cases hr : scanBlockBreaks indent cursor.advanceLine with
    | error => simp [hr, bind, Except.bind] at h
    | ok result =>
      obtain ⟨_, _, _⟩ := result
      simp only [hr, bind, Except.bind, pure, Except.pure, Except.ok.injEq, Prod.mk.injEq] at h
      exact h.2.2 ▸ Nat.le_trans (ih hr) (Nat.le_of_lt hlt)
  | case3 => cases h; exact Cursor.left_advance_le ..

/-- What precedes a line of a block scalar. -/
structure LineStart where
  /-- The end of the line before. -/
  last : List Char := []
  /-- The ends of the empty lines behind it. -/
  further : List Char := []
  /-- Whether the line before starts with a space or tab. -/
  indented : Bool := false

/-- What the ends of lines in front of a line stand for: in a folded scalar the end of a line
becomes a space unless it stands beside an empty or an indented line. -/
def LineStart.text (start : LineStart) (isLiteral nextIndented : Bool) : List Char :=
  if !isLiteral && start.last.head? == some '\n' && !start.indented && !nextIndented then
    (if start.further.isEmpty then [' '] else []) ++ start.further
  else start.last ++ start.further

theorem left_line_lt {cursor : Cursor} (h : cursor.atEnd = false) :
    cursor.skipToBreak.advanceLine.left < cursor.left := by
  cases hr : cursor.rest with
  | nil => simp [Cursor.atEnd, hr] at h
  | cons c rest =>
    by_cases hb : isBreak c = true
    · have hs : cursor.skipToBreak = cursor := by
        have ht : cursor.rest.takeWhile (!isBreak ·) = [] := by simp [hr, hb]
        simp [Cursor.skipToBreak, Cursor.skipWhile, Cursor.span, Cursor.advance, ht]
      rw [hs]
      exact Cursor.left_advanceLine_lt (by simp [Cursor.satisfiesAt, Cursor.peekAt, hr, hb])
    · refine Nat.lt_of_le_of_lt (Cursor.left_advanceLine_le _) ?_
      have ht : 0 < (cursor.rest.takeWhile (!isBreak ·)).length := by simp [hr, hb]
      have hl : 0 < cursor.left := by simp [Cursor.left, hr]
      simp only [Cursor.skipToBreak, Cursor.skipWhile, Cursor.span, Cursor.left_advance]
      omega

/-- Reads the lines of a block scalar. The answer has what stands behind the last of them, too. -/
def scanBlockLines (isLiteral : Bool) (indent : Nat) (start : LineStart) (cursor : Cursor) :
    Lex (List Char × LineStart × Cursor) :=
  if h : cursor.column = indent ∧ cursor.atEnd = false then
    have hl := left_line_lt h.2
    let indented := cursor.satisfiesAt 0 isSpaceOrTab
    let line := cursor.rest.takeWhile (!isBreak ·)
    let last := cursor.skipToBreak
    match hs : scanBlockBreaks (some indent) last.advanceLine with
    | .error reason => throw reason
    | .ok (_, further, next) => do
      have := Nat.lt_of_le_of_lt (left_scanBlockBreaks_le hs) hl
      let (rest, ending) ←
        scanBlockLines isLiteral indent ⟨last.breakText, further, indented⟩ next
      pure (start.text isLiteral indented ++ line ++ rest, ending)
  else pure ([], start, cursor)
termination_by cursor.left

/-- **A block scalar.** `parent` is the column of the block around it, if there is one. -/
def scanBlock (isLiteral : Bool) (parent : Option Nat) (cursor : Cursor) :
    Lex (String × Cursor) := do
  let (chomping, increment, cursor) ← scanBlockHeader (cursor.advance 1)
  let cursor ← scanLineEnd "while scanning a block scalar" cursor
  let given := increment.map (parent.getD 0 + ·)
  let (widest, breaks, cursor) ← scanBlockBreaks given cursor
  let indent := given.getD (max widest (max (match parent with
    | some column => column + 1
    | none => 0) 1))
  let (text, ending, cursor) ← scanBlockLines isLiteral indent { further := breaks } cursor
  let text := text ++ (if chomping == .strip then [] else ending.last) ++
    (if chomping == .keep then ending.further else [])
  pure (String.ofList text, cursor)

end Rulebook.Yaml
