import Rulebook.Yaml.Lexeme

/-!
# The tokens of a YAML text

A YAML text is first divided into **tokens**. Two things make this more than cutting: the
indentation of lines opens and closes blocks, and a mapping key without a mark is recognised only
by the colon behind it, when its own tokens are already there.

The second is handled by **candidates**. Wherever a key may start, the position is noted; if a
colon follows on the same line and not too far away, the tokens that open the key are put in at the
noted position. A token is **settled** when no candidate stands at or before it. A fault of the
text leaves the settled tokens in place, so that what precedes it is still understood.
-/

namespace Rulebook.Yaml

/-- **A token.** -/
inductive Token where
  /-- The text begins. -/
  | streamStart
  /-- The text ends. -/
  | streamEnd
  /-- A directive. -/
  | directive (directive : Directive)
  /-- `---`. -/
  | documentStart
  /-- `...`. -/
  | documentEnd
  /-- A block of list items opens. -/
  | blockSequenceStart
  /-- A block of entries opens. -/
  | blockMappingStart
  /-- A block closes. -/
  | blockEnd
  /-- An opening bracket. -/
  | flowSequenceStart
  /-- A closing bracket. -/
  | flowSequenceEnd
  /-- An opening brace. -/
  | flowMappingStart
  /-- A closing brace. -/
  | flowMappingEnd
  /-- The mark of a list item. -/
  | blockEntry
  /-- A comma. -/
  | flowEntry
  /-- A key follows. -/
  | key
  /-- A value follows. -/
  | value
  /-- A reference. -/
  | alias (name : String)
  /-- A name given to the node that follows. -/
  | anchor (name : String)
  /-- A tag given to the node that follows. -/
  | tag (handle suffix : String)
  /-- A scalar. -/
  | scalar (text : String) (style : ScalarStyle)
deriving DecidableEq, Repr

/-- **A place where a key may have started.** -/
structure Candidate where
  /-- Whether only a key can stand there. -/
  required : Bool
  /-- The number of the token that would open the key. -/
  number : Nat
  /-- The position in the text. -/
  index : Nat
  /-- The line. -/
  line : Nat
  /-- The column. -/
  column : Nat

/-- **A text that is being divided.** -/
structure Scanner where
  /-- What is still to be read. -/
  cursor : Cursor
  /-- The tokens in front of which a key may still be put. -/
  tokens : Array Token := #[]
  /-- How many tokens precede them. -/
  settled : Nat := 0
  /-- How many brackets and braces are open. -/
  depth : Nat := 0
  /-- The column of the innermost block, if one is open. -/
  indent : Option Nat := none
  /-- The columns of the blocks around it. -/
  outer : List (Option Nat) := []
  /-- Whether a key may start here. -/
  keyAllowed : Bool := true
  /-- For each open bracket and for the text itself, innermost first, where a key may have
  started. -/
  candidates : List (Option Candidate) := [none]
  /-- Whether the end of the text was reached. -/
  ended : Bool := false
  /-- Whether the text is the readable beginning of a longer one. -/
  cut : Bool := false

namespace Scanner

/-- Adds a token. -/
def push (s : Scanner) (token : Token) : Scanner := { s with tokens := s.tokens.push token }

/-- Puts a token in front of an earlier one. -/
def insertAt (s : Scanner) (number : Nat) (token : Token) : Scanner :=
  { s with tokens := s.tokens.insertIdxIfInBounds (number - s.settled) token }

/-- Drops a candidate that lies on an earlier line or more than 1024 characters back. -/
def expire (cursor : Cursor) : Option Candidate → Lex (Option Candidate)
  | none => pure none
  | some candidate =>
    if candidate.line < cursor.line || candidate.index + 1024 < cursor.index then
      if candidate.required then throw "while scanning a simple key, could not find expected ':'"
      else pure none
    else pure (some candidate)

/-- Drops the candidates that have come too far away. -/
def expireAll (s : Scanner) : Lex Scanner := do
  let candidates ← s.candidates.mapM (expire s.cursor)
  pure { s with candidates }

/-- Gives up the innermost candidate. -/
def dropCandidate (s : Scanner) : Lex Scanner :=
  match s.candidates with
  | some candidate :: rest =>
    if candidate.required then throw "while scanning a simple key, could not find expected ':'"
    else pure { s with candidates := none :: rest }
  | _ => pure s

/-- Notes that a key may start here. -/
def noteCandidate (s : Scanner) : Lex Scanner := do
  if s.keyAllowed then
    let s ← s.dropCandidate
    let candidate : Candidate :=
      { required := s.depth == 0 && s.indent == some s.cursor.column
        number := s.settled + s.tokens.size
        index := s.cursor.index, line := s.cursor.line, column := s.cursor.column }
    pure { s with candidates := some candidate :: s.candidates.drop 1 }
  else pure s

/-- Whether a column lies further in than the innermost block. -/
def isDeeper (indent : Option Nat) (column : Nat) : Bool := indent.all (· < column)

/-- Opens a block at a column, unless one is open there. Its token comes last or in front of an
earlier one. -/
def openBlock (s : Scanner) (column : Nat) (number : Option Nat) (token : Token) : Scanner :=
  if s.depth == 0 && isDeeper s.indent column then
    let s := { s with outer := s.indent :: s.outer, indent := some column }
    match number with
    | none => s.push token
    | some number => s.insertAt number token
  else s

/-- Closes blocks while `closes` holds of their column. -/
def closeWhile (closes : Nat → Bool) : List (Option Nat) → Scanner → Scanner
  | outer, s =>
    match s.indent with
    | none => s
    | some column =>
      if closes column then
        match outer with
        | [] => { s with indent := none, outer := [] }.push .blockEnd
        | next :: rest =>
          closeWhile closes rest ({ s with indent := next, outer := rest }.push .blockEnd)
      else s

/-- Closes the blocks that lie further in than a column; all blocks, when there is none. -/
def closeBlocks (s : Scanner) (column : Option Nat) : Scanner :=
  if s.depth == 0 then
    closeWhile (fun open? => match column with
      | none => true
      | some column => column < open?) s.outer s
  else s

/-- Moves over the characters of a token and adds it. -/
def emit (s : Scanner) (n : Nat) (token : Token) : Scanner :=
  { s with cursor := s.cursor.advance n, tokens := s.tokens.push token }

/-- Moves over the spaces and the comment in front of a token. Tabs count as spaces where no key may
start. A mark of the order of bytes may start the text. -/
def skipBlank (s : Scanner) : Cursor :=
  let cursor := s.cursor.advance (if s.cursor.index == 0 && s.cursor.at? '\uFEFF' then 1 else 0)
  let tabs := s.depth != 0 || !s.keyAllowed
  (cursor.skipWhile fun c => c == ' ' || (tabs && c == '\t')).skipComment

theorem left_skipBlank_le (s : Scanner) : s.skipBlank.left ≤ s.cursor.left :=
  Nat.le_trans (Cursor.left_skipComment_le _)
    (Nat.le_trans (Cursor.left_skipWhile_le ..) (Cursor.left_advance_le ..))

/-- **Moves to the next token.** A line end allows a key again. -/
def toNextToken (s : Scanner) : Scanner :=
  let cursor := s.skipBlank
  if h : cursor.satisfiesAt 0 isBreak then
    have := Nat.lt_of_lt_of_le (Cursor.left_advanceLine_lt h) s.left_skipBlank_le
    toNextToken { s with cursor := cursor.advanceLine, keyAllowed := s.keyAllowed || s.depth == 0 }
  else { s with cursor }
termination_by s.cursor.left

/-- The end of the text. -/
def scanEnd (s : Scanner) : Lex Scanner := do
  let cursor := s.cursor
  let cursor :=
    if cursor.column == 0 then cursor else { cursor with column := 0, line := cursor.line + 1 }
  let s ← ({ s with cursor }.closeBlocks none).dropCandidate
  pure { s.push .streamEnd with keyAllowed := false, ended := true }

/-- A token that stands at the start of a line and closes all blocks. -/
def scanAtMargin (s : Scanner) (finish : Scanner → Lex Scanner) : Lex Scanner := do
  let s ← (s.closeBlocks none).dropCandidate
  finish { s with keyAllowed := false }

/-- An opening bracket or brace. -/
def scanFlowStart (s : Scanner) (token : Token) : Lex Scanner := do
  let s ← s.noteCandidate
  let s := { s with candidates := none :: s.candidates, depth := s.depth + 1, keyAllowed := true }
  pure (s.emit 1 token)

/-- A closing bracket or brace. -/
def scanFlowEnd (s : Scanner) (token : Token) : Lex Scanner := do
  let s ← s.dropCandidate
  let s := if s.depth == 0 then s else
    { s with depth := s.depth - 1, candidates := s.candidates.drop 1 }
  pure (emit { s with keyAllowed := false } 1 token)

/-- A comma. -/
def scanFlowEntry (s : Scanner) : Lex Scanner := do
  let s ← s.dropCandidate
  pure (emit { s with keyAllowed := true } 1 .flowEntry)

/-- The mark of a list item. -/
def scanBlockEntry (s : Scanner) : Lex Scanner := do
  if s.depth == 0 && !s.keyAllowed then
    throw "block sequence entries are not allowed in this context"
  let s ← (s.openBlock s.cursor.column none .blockSequenceStart).dropCandidate
  pure (emit { s with keyAllowed := true } 1 .blockEntry)

/-- The mark of a key. -/
def scanKey (s : Scanner) : Lex Scanner := do
  if s.depth == 0 && !s.keyAllowed then
    throw "mapping keys are not allowed in this context"
  let s ← (s.openBlock s.cursor.column none .blockMappingStart).dropCandidate
  pure (emit { s with keyAllowed := s.depth == 0 } 1 .key)

/-- The mark of a value. If a candidate is left, it becomes a key. -/
def scanValue (s : Scanner) : Lex Scanner := do
  match s.candidates with
  | some candidate :: rest =>
    let s := s.insertAt candidate.number .key
    let s := s.openBlock candidate.column (some candidate.number) .blockMappingStart
    pure (emit { s with candidates := none :: rest, keyAllowed := false } 1 .value)
  | _ =>
    if s.depth == 0 && !s.keyAllowed then
      throw "mapping values are not allowed in this context"
    let s := s.openBlock s.cursor.column none .blockMappingStart
    pure (emit { s with keyAllowed := s.depth == 0 } 1 .value)

/-- A token at which a key may start and behind which none may. -/
def scanKeyPart (s : Scanner) (lex : Cursor → Lex (Token × Cursor)) : Lex Scanner := do
  let s ← s.noteCandidate
  let (token, cursor) ← lex s.cursor
  pure { s with cursor, keyAllowed := false, tokens := s.tokens.push token }

/-- A tag, which a gap must follow or, between brackets, a comma. -/
def lexTag (flow : Bool) (cursor : Cursor) : Lex (Token × Cursor) := do
  let ((handle, suffix), cursor) ← scanTag cursor
  if cursor.gapAt 0 || (flow && cursor.at? ',') then pure (.tag handle suffix, cursor)
  else throw "while scanning a tag, did not find expected whitespace or line break"

/-- A scalar in quotes. -/
def lexQuoted (single : Bool) (cursor : Cursor) : Lex (Token × Cursor) := do
  let (text, cursor) ← scanQuoted single cursor
  pure (.scalar text (if single then .singleQuoted else .doubleQuoted), cursor)

/-- A block scalar. -/
def scanBlockScalar (s : Scanner) (isLiteral : Bool) : Lex Scanner := do
  let s ← s.dropCandidate
  let (text, cursor) ← scanBlock isLiteral s.indent s.cursor
  let token := Token.scalar text (if isLiteral then .literal else .folded)
  pure { s with cursor, keyAllowed := true, tokens := s.tokens.push token }

/-- A plain scalar. A key may start behind it if a line has ended. -/
def scanPlainScalar (s : Scanner) : Lex Scanner := do
  let s ← s.noteCandidate
  let indent := match s.indent with
    | none => 0
    | some column => column + 1
  let (text, broken, cursor) ← scanPlain (s.depth != 0) indent s.cursor
  pure { s with cursor, keyAllowed := broken, tokens := s.tokens.push (.scalar text .plain) }

/-- Whether a plain scalar starts at a character. -/
def startsPlain (s : Scanner) (c : Char) : Bool :=
  !(isGap c || "-?:,[]\x7b\x7d#&*!|>'\"%@`".toList.contains c) ||
    (c == '-' && !s.cursor.satisfiesAt 1 isSpaceOrTab) ||
    (s.depth == 0 && (c == '?' || c == ':') && !s.cursor.gapAt 1)

/-- The token that starts at a character. -/
def scanAt (s : Scanner) (c : Char) : Lex Scanner :=
  let flow := s.depth != 0
  if s.cursor.column == 0 && c == '%' then
    s.scanAtMargin fun s => do
      let (directive, cursor) ← scanDirective s.cursor
      pure ({ s with cursor }.push (.directive directive))
  else if s.cursor.atMarker '-' then
    s.scanAtMargin fun s => pure (s.emit 3 .documentStart)
  else if s.cursor.atMarker '.' then
    s.scanAtMargin fun s => pure (s.emit 3 .documentEnd)
  else if c == '[' then s.scanFlowStart .flowSequenceStart
  else if c == '\x7b' then s.scanFlowStart .flowMappingStart
  else if c == ']' then s.scanFlowEnd .flowSequenceEnd
  else if c == '\x7d' then s.scanFlowEnd .flowMappingEnd
  else if c == ',' then s.scanFlowEntry
  else if c == '-' && s.cursor.gapAt 1 then s.scanBlockEntry
  else if c == '?' && (flow || s.cursor.gapAt 1) then s.scanKey
  else if c == ':' && (flow || s.cursor.gapAt 1) then s.scanValue
  else if c == '*' then s.scanKeyPart fun cursor => do
    let (name, cursor) ← scanAnchor cursor
    pure (.alias name, cursor)
  else if c == '&' then s.scanKeyPart fun cursor => do
    let (name, cursor) ← scanAnchor cursor
    pure (.anchor name, cursor)
  else if c == '!' then s.scanKeyPart (lexTag flow)
  else if c == '|' && !flow then s.scanBlockScalar true
  else if c == '>' && !flow then s.scanBlockScalar false
  else if c == '\x27' then s.scanKeyPart (lexQuoted true)
  else if c == '"' then s.scanKeyPart (lexQuoted false)
  else if s.startsPlain c then s.scanPlainScalar
  else throw "while scanning for the next token, found character that cannot start any token"

/-- **Reads one token**, together with those that indentation and keys add to it. -/
def next (s : Scanner) : Lex Scanner := do
  let s ← s.toNextToken.expireAll
  let s := s.closeBlocks (some s.cursor.column)
  let s ← match s.cursor.peek with
    | none => s.scanEnd
    | some c => s.scanAt c
  if s.cut && s.cursor.atEnd then throw "control characters are not allowed"
  pure s

/-- The least number of a token that a candidate would put a key in front of. -/
def firstCandidate (s : Scanner) : Option Nat :=
  s.candidates.foldl (fun least candidate =>
    match least, candidate with
    | none, some candidate => some candidate.number
    | some n, some candidate => some (min n candidate.number)
    | least, none => least) none

/-- **Settles the tokens** in front of the first candidate. -/
def settle (s : Scanner) : Lex (List Token × Scanner) := do
  let s ← s.expireAll
  let count := match s.firstCandidate with
    | none => s.tokens.size
    | some number => number - s.settled
  pure ((s.tokens.take count).toList,
    { s with tokens := s.tokens.drop count, settled := s.settled + count })

/-- Reads up to `fuel` tokens. The answer has the settled ones, and a fault if one was met. -/
def run : Nat → Scanner → List Token × Option String
  | 0, _ => ([], none)
  | fuel + 1, s =>
    if s.ended && s.tokens.isEmpty then ([], none)
    else
      match s.next >>= settle with
      | .error reason => ([], some reason)
      | .ok (tokens, s) =>
        let (rest, fault) := run fuel s
        (tokens ++ rest, fault)

end Scanner

/-- The longest beginning of a text that takes no more than the given number of bytes. -/
def takeBytes : Nat → List Char → List Char
  | _, [] => []
  | limit, c :: rest => if c.utf8Size ≤ limit then c :: takeBytes (limit - c.utf8Size) rest else []

/-- How many bytes a text is read ahead at a time. -/
def readAhead : Nat := 16384

/-- **The tokens of a text**, up to its first fault. A character that no YAML text may hold is a
fault of the whole stretch of bytes that is read ahead together with it. -/
def Token.ofText (text : List Char) : List Token × Option String :=
  let scan (chars : List Char) (cut : Bool) :=
    let (tokens, fault) :=
      Scanner.run (2 * chars.length + 8) { cursor := { rest := chars }, settled := 1, cut }
    (Token.streamStart :: tokens, fault)
  match text.findIdx? (!isAllowed ·) with
  | none => scan text false
  | some position =>
    let offset := (String.ofList (text.take position)).utf8ByteSize
    scan (takeBytes (offset / readAhead * readAhead) text) true

end Rulebook.Yaml
