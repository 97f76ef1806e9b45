import Rulebook.Yaml.Token

/-!
# The events of a YAML text

The grammar of YAML turns tokens into **events**: documents, lists and tables begin and end, and
in between stand scalars and references. A node may carry an anchor and a tag, in either order; a
tag is written out in full here, by the directives of its document. Where the grammar needs a node
and there is none, an empty scalar stands for it.

The grammar is a machine with a stack of states. A step looks at the next tokens and gives one
event. Tokens that have run out, because the text breaks off in a fault, end the events there.

One state departs from the rule that an empty node takes no token: in a list in brackets, a key
mark that is followed by no key takes the token behind it along.
-/

namespace Rulebook.Yaml

/-- What stands before a node. -/
structure Properties where
  /-- The name given to the node. -/
  anchor : Option String := none
  /-- The tag, in full. -/
  tag : Option String := none
deriving DecidableEq, Repr

/-- **An event.** -/
inductive Event where
  /-- The text begins. -/
  | streamStart
  /-- The text ends. -/
  | streamEnd
  /-- A document begins. -/
  | documentStart
  /-- A document ends. -/
  | documentEnd
  /-- A reference. -/
  | alias (name : String)
  /-- A scalar. -/
  | scalar (properties : Properties) (text : String) (style : ScalarStyle)
  /-- A list begins. -/
  | sequenceStart (properties : Properties)
  /-- A list ends. -/
  | sequenceEnd
  /-- A table begins. -/
  | mappingStart (properties : Properties)
  /-- A table ends. -/
  | mappingEnd
deriving DecidableEq, Repr

/-- The empty scalar that stands for a missing node. -/
def Event.empty : Event := .scalar {} "" .plain

/-- **What the grammar expects next.** -/
inductive GrammarState where
  /-- The beginning of the text. -/
  | stream
  /-- A first document, which may begin without a mark. -/
  | firstDocument
  /-- A further document, which needs its mark. -/
  | furtherDocument
  /-- The node behind the mark of a document. -/
  | documentContent
  /-- The end of a document. -/
  | documentEnd
  /-- A node of a block. -/
  | blockNode
  /-- The first item of a block. -/
  | blockSequenceFirst
  /-- An item of a block. -/
  | blockSequenceEntry
  /-- An item of a list that is indented no further than the table around it. -/
  | indentlessEntry
  /-- The first key of a block. -/
  | blockMappingFirst
  /-- A key of a block. -/
  | blockMappingKey
  /-- A value of a block. -/
  | blockMappingValue
  /-- The first item in brackets. -/
  | flowSequenceFirst
  /-- An item in brackets. -/
  | flowSequenceEntry
  /-- The key of a pair in brackets. -/
  | flowPairKey
  /-- The value of a pair in brackets. -/
  | flowPairValue
  /-- The end of a pair in brackets. -/
  | flowPairEnd
  /-- The first key in braces. -/
  | flowMappingFirst
  /-- A key in braces. -/
  | flowMappingKey
  /-- A value in braces. -/
  | flowMappingValue
  /-- The missing value of a key in braces that has no mark. -/
  | flowMappingEmptyValue
  /-- Nothing. -/
  | done
deriving DecidableEq, Repr

/-- **A text whose events are being found.** -/
structure Grammar where
  /-- The tokens still to come. -/
  tokens : List Token
  /-- What is expected. -/
  state : GrammarState := .stream
  /-- What is expected when the current node is complete, innermost first. -/
  stack : List GrammarState := []
  /-- The handles that the document has declared, and what they stand for. -/
  handles : List (String × String) := []
  /-- Whether the document has declared its version. -/
  versionGiven : Bool := false

/-- Why a step is not possible: the tokens have run out, or they do not fit. -/
inductive Stop where
  /-- No token is left. -/
  | exhausted
  /-- The token does not fit, in words. -/
  | refused (reason : String)

namespace Grammar

/-- A step of the grammar. -/
abbrev Parse := Except Stop

/-- The next token. -/
def peek (g : Grammar) : Parse Token :=
  match g.tokens with
  | [] => throw .exhausted
  | token :: _ => pure token

/-- Takes the next token. -/
def drop (g : Grammar) : Grammar := { g with tokens := g.tokens.drop 1 }

/-- Expects something else. -/
def goto (g : Grammar) (state : GrammarState) : Grammar := { g with state }

/-- Expects what follows the current node. -/
def pop (g : Grammar) : Grammar :=
  match g.stack with
  | [] => { g with state := .done }
  | state :: stack => { g with state, stack }

/-- Notes what to expect after the node that is read now. -/
def push (g : Grammar) (state : GrammarState) : Grammar := { g with stack := state :: g.stack }

/-- Gives the empty scalar and expects something else. -/
def missing (g : Grammar) (state : GrammarState) : Event × Grammar := (.empty, g.goto state)

/-- The handles that every document may use. -/
def commonHandles : List (String × String) := [("!", "!"), ("!!", "tag:yaml.org,2002:")]

/-- Reads the directives in front of a document. -/
def readDirectives : List Token → Grammar → Parse Grammar
  | .directive (.version major minor) :: rest, g => do
    if g.versionGiven then throw (.refused "found duplicate %YAML directive")
    if major != 1 || (minor != 1 && minor != 2) then
      throw (.refused "found incompatible YAML document")
    readDirectives rest { g with versionGiven := true, tokens := rest }
  | .directive (.tag handle start) :: rest, g => do
    if g.handles.any (·.1 == handle) then throw (.refused "found duplicate %TAG directive")
    readDirectives rest { g with handles := g.handles ++ [(handle, start)], tokens := rest }
  | [], _ => throw .exhausted
  | _ :: _, g => pure g

/-- Reads the directives of a document and forgets those of the one before. -/
def withDirectives (g : Grammar) : Parse Grammar :=
  readDirectives g.tokens { g with handles := [], versionGiven := false }

/-- Passes over the marks that end documents. -/
def skipDocumentEnds : List Token → List Token
  | .documentEnd :: rest => skipDocumentEnds rest
  | tokens => tokens

/-- The beginning of a document. -/
def documentStart (g : Grammar) (first : Bool) : Parse (Event × Grammar) := do
  let g := if first then g else { g with tokens := skipDocumentEnds g.tokens }
  match ← g.peek with
  | .streamEnd => pure (.streamEnd, (g.drop).goto .done)
  | token =>
    let marked := match token with
      | .directive _ | .documentStart => true
      | _ => false
    let g ← g.withDirectives
    if first && !marked then pure (.documentStart, (g.push .documentEnd).goto .blockNode)
    else
      match ← g.peek with
      | .documentStart =>
        pure (.documentStart, ((g.drop).push .documentEnd).goto .documentContent)
      | _ => throw (.refused "did not find expected <document start>")

/-- The tag that a handle and a text stand for. -/
def resolveTag (g : Grammar) (handle suffix : String) : Parse String :=
  if handle.isEmpty then pure suffix
  else
    match (g.handles ++ commonHandles).find? (·.1 == handle) with
    | some (_, start) => pure (start ++ suffix)
    | none => throw (.refused "while parsing a node, found undefined tag handle")

/-- Reads the anchor and the tag in front of a node. -/
def readProperties (g : Grammar) : Parse (Properties × Grammar) := do
  match ← g.peek with
  | .anchor name =>
    let g := g.drop
    match ← g.peek with
    | .tag handle suffix =>
      let g := g.drop
      let _ ← g.peek
      let tag ← g.resolveTag handle suffix
      pure (⟨some name, some tag⟩, g)
    | _ => pure (⟨some name, none⟩, g)
  | .tag handle suffix =>
    let g := g.drop
    match ← g.peek with
    | .anchor name =>
      let g := g.drop
      let _ ← g.peek
      let tag ← g.resolveTag handle suffix
      pure (⟨some name, some tag⟩, g)
    | _ =>
      let tag ← g.resolveTag handle suffix
      pure (⟨none, some tag⟩, g)
  | _ => pure ({}, g)

/-- **A node.** A list without an indentation of its own is admitted as the part of a table. -/
def node (g : Grammar) (block indentless : Bool) : Parse (Event × Grammar) := do
  match ← g.peek with
  | .alias name => pure (.alias name, g.drop.pop)
  | _ =>
    let (properties, g) ← g.readProperties
    match ← g.peek, block, indentless with
    | .blockEntry, _, true => pure (.sequenceStart properties, g.goto .indentlessEntry)
    | .scalar text style, _, _ =>
      pure (.scalar properties text style, g.drop.pop)
    | .flowSequenceStart, _, _ => pure (.sequenceStart properties, g.goto .flowSequenceFirst)
    | .flowMappingStart, _, _ => pure (.mappingStart properties, g.goto .flowMappingFirst)
    | .blockSequenceStart, true, _ => pure (.sequenceStart properties, g.goto .blockSequenceFirst)
    | .blockMappingStart, true, _ => pure (.mappingStart properties, g.goto .blockMappingFirst)
    | _, _, _ =>
      if properties.anchor.isSome || properties.tag.isSome then
        pure (.scalar properties "" .plain, g.pop)
      else throw (.refused "while parsing a node, did not find expected node content")

/-- An item of a block. -/
def blockSequenceEntry (g : Grammar) : Parse (Event × Grammar) := do
  match ← g.peek with
  | .blockEntry =>
    let g := g.drop
    match ← g.peek with
    | .blockEntry | .blockEnd => pure (g.missing .blockSequenceEntry)
    | _ => (g.push .blockSequenceEntry).node true false
  | .blockEnd => pure (.sequenceEnd, g.drop.pop)
  | _ => throw (.refused "while parsing a block collection, did not find expected '-' indicator")

/-- An item of a list without an indentation of its own. -/
def indentlessEntry (g : Grammar) : Parse (Event × Grammar) := do
  match ← g.peek with
  | .blockEntry =>
    let g := g.drop
    match ← g.peek with
    | .blockEntry | .key | .value | .blockEnd => pure (g.missing .indentlessEntry)
    | _ => (g.push .indentlessEntry).node true false
  | _ => pure (.sequenceEnd, g.pop)

/-- A key of a block. -/
def blockMappingKey (g : Grammar) : Parse (Event × Grammar) := do
  match ← g.peek with
  | .key =>
    let g := g.drop
    match ← g.peek with
    | .key | .value | .blockEnd => pure (g.missing .blockMappingValue)
    | _ => (g.push .blockMappingValue).node true true
  | .blockEnd => pure (.mappingEnd, g.drop.pop)
  | _ => throw (.refused "while parsing a block mapping, did not find expected key")

/-- A value of a block. -/
def blockMappingValue (g : Grammar) : Parse (Event × Grammar) := do
  match ← g.peek with
  | .value =>
    let g := g.drop
    match ← g.peek with
    | .key | .value | .blockEnd => pure (g.missing .blockMappingKey)
    | _ => (g.push .blockMappingKey).node true true
  | _ => pure (g.missing .blockMappingKey)

/-- Takes the comma between two parts in brackets or braces, unless the closing token stands
there. -/
def separator (g : Grammar) (first : Bool) (closing : Token) (reason : String) : Parse Grammar := do
  let token ← g.peek
  if first || token == closing then pure g
  else if token == .flowEntry then
    let g := g.drop
    let _ ← g.peek
    pure g
  else throw (.refused reason)

/-- An item in brackets. -/
def flowSequenceEntry (g : Grammar) (first : Bool) : Parse (Event × Grammar) := do
  let g ← g.separator first .flowSequenceEnd
    "while parsing a flow sequence, did not find expected ',' or ']'"
  match ← g.peek with
  | .key => pure (.mappingStart {}, g.drop.goto .flowPairKey)
  | .flowSequenceEnd => pure (.sequenceEnd, g.drop.pop)
  | _ => (g.push .flowSequenceEntry).node false false

/-- The key of a pair in brackets. A missing key takes the next token along. -/
def flowPairKey (g : Grammar) : Parse (Event × Grammar) := do
  match ← g.peek with
  | .value | .flowEntry | .flowSequenceEnd => pure (g.drop.missing .flowPairValue)
  | _ => (g.push .flowPairValue).node false false

/-- The value of a pair in brackets. -/
def flowPairValue (g : Grammar) : Parse (Event × Grammar) := do
  match ← g.peek with
  | .value =>
    let g := g.drop
    match ← g.peek with
    | .flowEntry | .flowSequenceEnd => pure (g.missing .flowPairEnd)
    | _ => (g.push .flowPairEnd).node false false
  | _ => pure (g.missing .flowPairEnd)

/-- A key in braces. -/
def flowMappingKey (g : Grammar) (first : Bool) : Parse (Event × Grammar) := do
  let g ← g.separator first .flowMappingEnd
    "while parsing a flow mapping, did not find expected ',' or a closing brace"
  match ← g.peek with
  | .key =>
    let g := g.drop
    match ← g.peek with
    | .value | .flowEntry | .flowMappingEnd => pure (g.missing .flowMappingValue)
    | _ => (g.push .flowMappingValue).node false false
  | .flowMappingEnd => pure (.mappingEnd, g.drop.pop)
  | _ => (g.push .flowMappingEmptyValue).node false false

/-- A value in braces. -/
def flowMappingValue (g : Grammar) : Parse (Event × Grammar) := do
  match ← g.peek with
  | .value =>
    let g := g.drop
    match ← g.peek with
    | .flowEntry | .flowMappingEnd => pure (g.missing .flowMappingKey)
    | _ => (g.push .flowMappingKey).node false false
  | _ => pure (g.missing .flowMappingKey)

/-- **The next event**; none behind the end of the text. -/
def step (g : Grammar) : Parse (Option (Event × Grammar)) :=
  match g.state with
  | .stream => do
    let _ ← g.peek
    pure (some (.streamStart, g.drop.goto .firstDocument))
  | .firstDocument => some <$> g.documentStart true
  | .furtherDocument => some <$> g.documentStart false
  | .documentContent => do
    match ← g.peek with
    | .directive _ | .documentStart | .documentEnd | .streamEnd => pure (some (.empty, g.pop))
    | _ => some <$> g.node true false
  | .documentEnd => do
    match ← g.peek with
    | .documentEnd => pure (some (.documentEnd, g.drop.goto .furtherDocument))
    | _ => pure (some (.documentEnd, g.goto .furtherDocument))
  | .blockNode => some <$> g.node true false
  | .blockSequenceFirst => some <$> g.drop.blockSequenceEntry
  | .blockSequenceEntry => some <$> g.blockSequenceEntry
  | .indentlessEntry => some <$> g.indentlessEntry
  | .blockMappingFirst => some <$> g.drop.blockMappingKey
  | .blockMappingKey => some <$> g.blockMappingKey
  | .blockMappingValue => some <$> g.blockMappingValue
  | .flowSequenceFirst => some <$> g.drop.flowSequenceEntry true
  | .flowSequenceEntry => some <$> g.flowSequenceEntry false
  | .flowPairKey => some <$> g.flowPairKey
  | .flowPairValue => some <$> g.flowPairValue
  | .flowPairEnd => do
    let _ ← g.peek
    pure (some (.mappingEnd, g.goto .flowSequenceEntry))
  | .flowMappingFirst => some <$> g.drop.flowMappingKey true
  | .flowMappingKey => some <$> g.flowMappingKey false
  | .flowMappingValue => some <$> g.flowMappingValue
  | .flowMappingEmptyValue => do
    let _ ← g.peek
    pure (some (g.missing .flowMappingKey))
  | .done => pure none

/-- Up to `fuel` events, and why they break off if they do. -/
def run : Nat → Grammar → List Event × Option Stop
  | 0, _ => ([], none)
  | fuel + 1, g =>
    match g.step with
    | .error stop => ([], some stop)
    | .ok none => ([], none)
    | .ok (some (event, g)) =>
      let (events, stop) := run fuel g
      (event :: events, stop)

end Grammar

/-- **The events of a text**, and the reason why they break off before its end if they do. -/
def Event.ofText (text : List Char) : List Event × Option String :=
  let (tokens, fault) := Token.ofText text
  match Grammar.run (4 * tokens.length + 16) { tokens } with
  | (events, none) => (events, none)
  | (events, some .exhausted) => (events, some (fault.getD "unexpected end of the tokens"))
  | (events, some (.refused reason)) => (events, some reason)

end Rulebook.Yaml
